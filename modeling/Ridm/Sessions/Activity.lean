import Ridm.Sessions.Cap

/-!
# A session in use

One browser going on with one session: `sessions::get` again and again, each call after the one
before, each of its steps (the `GET`, the clock, the clock of `store`, the `PSETEX`, the mirror row)
at a moment of its own.  The calls are those of `Ridm.Sessions.Model`, stepped by its `act`; Valkey
drops the key the moment its lifetime is over.

* `visit_kept` — what one call keeps: the key lasts to within a millisecond of the earlier of the
  session's two deadlines, and the window was slid less than a minute before the call.
* `visit_mirrored` — what one call keeps of the mirror row: it is no older than the key in mirror
  intervals.
* `active_session_stays` — calls that are close enough together all return the session, and after
  every slide the row trails it by less than a mirror interval.

The lifetime is sent in whole milliseconds, and what is left over is lost to the session: calls
exactly a minute less than the idle timeout apart can find the key gone (`lapses_early`).
-/

namespace Ridm.Sessions

/-! ## Calls in a row -/

/-- The clock comes to `t`; a key whose lifetime is over by then is gone. -/
def Store.atTime (g : Store) (t : Instant) : Store :=
  { g with now := t, key := if g.key.lapsed t then none else g.key }

/-- The next step of a call, taken at `t`; a call that is over stays as it is. -/
def stepAt (p : Store × Pc) (t : Instant) : Store × Pc :=
  (act (p.1.atTime t) p.2).getD (p.1.atTime t, p.2)

/-- When the steps of a `get` are taken: the key is loaded, the clock is read, the clock is read in
`store`, the key is written, the mirror row is written. -/
structure Visit where
  loaded : Instant
  now : Instant
  stored : Instant
  written : Instant
  mirrored : Instant
  loaded_le : loaded ≤ now
  now_le : now ≤ stored
  stored_le : stored ≤ written
  written_le : written ≤ mirrored

/-- `get` up to what it makes of the value it loaded. -/
def decided (policy : SessionPolicy) (g : Store) (v : Visit) : Store × Pc :=
  stepAt (stepAt (g, .idle (.request policy [])) v.loaded) v.now

/-- `get`. -/
def visit (policy : SessionPolicy) (g : Store) (v : Visit) : Store × Pc :=
  stepAt (stepAt (stepAt (decided policy g v) v.stored) v.written) v.mirrored

/-- Calls of `get`, each after the one before. -/
def activity (policy : SessionPolicy) : Machine Store Visit where
  step g v := if g.now ≤ v.loaded then some (visit policy g v).1 else none

/-- Who opened a session. -/
inductive OpenedBy
  | signIn (req : NewSession)
  | administrator (impersonator : Impersonator) (lifetime : ℤ) (ip userAgent : Option String)

/-- The opening of a session, and when its key is written. -/
structure Opening where
  tenantId : Uuid
  userId : Uuid
  id : Uuid
  who : OpenedBy
  now : Instant
  stored : Instant
  written : Instant
  now_le : now ≤ stored
  stored_le : stored ≤ written

def Opening.session (policy : OpeningPolicy) (o : Opening) : SsoSession :=
  match o.who with
  | .signIn req => newSession o.tenantId o.userId o.id req policy o.now
  | .administrator impersonator lifetime ip userAgent =>
      newImpersonatedSession o.tenantId o.userId o.id impersonator lifetime ip userAgent policy o.now

/-- `repos::sessions::insert`. -/
def SsoSession.toRow (s : SsoSession) : SessionRow where
  authTime := s.authTime
  amr := s.amr
  acr := s.acr
  deviceId := s.deviceId
  orgId := s.orgId
  lastSeenAt := s.lastSeenAt
  idleExpiresAt := s.idleExpiresAt
  revokedAt := none

/-- The store once `create` (or `create_impersonated`) has returned. -/
def opened (policy : OpeningPolicy) (o : Opening) : Store :=
  let s := o.session policy
  let row : Store :=
    { now := o.now, key := none, row := s.toRow, tracked := true, tokensRevoked := false }
  (stepAt (stepAt (row, .storing s (.slid false [])) o.stored) o.written).1

/-- `get` returned the session. -/
def Returns (policy : SessionPolicy) (id : Uuid) (g : Store) (v : Visit) : Prop :=
  ∃ s, (visit policy g v).2 = .holding s [] ∧ s.id = id

/-- If the call slid the window, to `s`, then the row's idle expiry is less than a mirror interval
before that of `s`. -/
def Trails (policy : SessionPolicy) (g : Store) (v : Visit) : Prop :=
  ∀ s t, (decided policy g v).2 = .storing s t →
    s.idleExpiresAt - (visit policy g v).1.row.idleExpiresAt < seconds (mirrorInterval policy)

/-- The clock readings of calls in a row, the first after `before`: each less than the idle timeout
less a minute after the one before, give or take `slack`, and that long before `ends`. -/
def Spaced (policy : SessionPolicy) (slack : ℤ) (ends : Instant) : Instant → List Visit → Prop
  | _, [] => True
  | before, v :: vs =>
      v.now + slack ≤ before + seconds (policy.idleTimeoutSecs - 60) ∧ v.now + slack < ends ∧
        Spaced policy slack ends v.now vs

instance decidableSpaced (policy : SessionPolicy) (slack : ℤ) (ends : Instant) :
    ∀ (before : Instant) (vs : List Visit), Decidable (Spaced policy slack ends before vs)
  | _, [] => .isTrue trivial
  | before, v :: vs =>
      have _ := decidableSpaced policy slack ends v.now vs
      inferInstanceAs (Decidable (v.now + slack ≤ before + seconds (policy.idleTimeoutSecs - 60) ∧
        v.now + slack < ends ∧ Spaced policy slack ends v.now vs))

/-! ## One step -/

variable {policy : SessionPolicy} {g : Store} {s : SsoSession} {t : Instant} {v : Visit}

@[simp] lemma atTime_now : (g.atTime t).now = t := rfl

@[simp] lemma atTime_row : (g.atTime t).row = g.row := rfl

lemma lasts_atTime {ends : Instant} (h : g.key.Lasts s ends g.now) (hle : g.now ≤ t) :
    (g.atTime t).key.Lasts s ends t := by
  by_cases hlapsed : g.key.lapsed t = true
  · have hexpire : g.key.expire t = some none := by rw [Slot.expire, if_pos hlapsed]
    have hkey : (g.atTime t).key = none := by rw [Store.atTime, if_pos hlapsed]
    rw [hkey]
    exact (h.later hle).expire hexpire
  · have hkey : (g.atTime t).key = g.key := by rw [Store.atTime, if_neg hlapsed]
    rw [hkey]
    exact h.later hle

lemma get_atTime (h : (g.atTime t).key.get = some s) : g.key.get = some s := by
  simp only [Store.atTime] at h
  split_ifs at h
  · cases h
  · exact h

lemma atTime_run {ι : Type} [DecidableEq ι] (w : Pool ι Store Pc) (h : w.shared.now ≤ t) :
    ∃ as, (calls ι).machine.run w as = some ⟨w.shared.atTime t, w.calls⟩ := by
  have hclock : w.shared.now + ((t - w.shared.now).toNat : ℤ) = t := by
    rw [Int.toNat_of_nonneg (Int.sub_nonneg_of_le h)]
    exact add_sub_self _ _
  have henv : env w.shared (.tick (t - w.shared.now).toNat) = some { w.shared with now := t } := by
    show some { w.shared with now := w.shared.now + ((t - w.shared.now).toNat : ℤ) } = _
    rw [hclock]
  have htick : (calls ι).machine.step w (.env (.tick (t - w.shared.now).toNat)) =
      some ⟨{ w.shared with now := t }, w.calls⟩ := Calls.step_env.mpr ⟨_, henv, rfl⟩
  by_cases hlapsed : w.shared.key.lapsed t = true
  · refine ⟨[.env (.tick (t - w.shared.now).toNat), .env .expire], ?_⟩
    refine Machine.run_cons.mpr ⟨_, htick, Machine.run_cons.mpr ⟨_, ?_, rfl⟩⟩
    refine Calls.step_env.mpr ⟨w.shared.atTime t, ?_, rfl⟩
    simp [calls, env, Slot.expire, Store.atTime, hlapsed]
  · refine ⟨[.env (.tick (t - w.shared.now).toNat)], Machine.run_cons.mpr ⟨_, htick, ?_⟩⟩
    rw [Machine.run_nil, Store.atTime, if_neg hlapsed]

lemma stepAt_run {ι : Type} [DecidableEq ι] (i : ι) (w : Pool ι Store Pc) (h : w.shared.now ≤ t) :
    ∃ as, (calls ι).machine.run w as =
      some (w.next i (stepAt (w.shared, w.calls i) t).1 (stepAt (w.shared, w.calls i) t).2) := by
  obtain ⟨as, has⟩ := atTime_run w h
  cases hact : act (w.shared.atTime t) (w.calls i) with
  | none =>
      refine ⟨as, has.trans ?_⟩
      rw [stepAt, hact, Option.getD_none, Pool.next, Function.update_eq_self]
  | some r =>
      refine ⟨as ++ [.call i ()], Machine.run_append.mpr ⟨_, has, ?_⟩⟩
      refine Machine.run_cons.mpr ⟨_, Calls.step_call.mpr ⟨r.1, r.2, hact, rfl⟩, ?_⟩
      rw [stepAt, hact, Option.getD_some]
      rfl

lemma act_now {g' : Store} {l l' : Pc} (h : act g l = some (g', l')) : g'.now = g.now := by
  cases l with
  | idle c =>
      cases c with
      | request policy ops =>
          simp only [act] at h
          split at h <;> (cases h; rfl)
      | opened s ops => cases h; rfl
      | revoke => cases h; rfl
  | got policy s ops =>
      simp only [act] at h
      split_ifs at h <;> (cases h; rfl)
  | storing s next =>
      simp only [act] at h
      split_ifs at h <;> (cases h; rfl)
  | writing s ttlMs next => cases h; rfl
  | mirroring s m served ops => cases h; rfl
  | holding s ops =>
      cases ops with
      | nil => cases h
      | cons op ops => cases h; rfl
  | absent => cases h
  | ending raw => cases h; rfl
  | marked raw => cases h; rfl
  | untracked live => cases h; rfl
  | revoked live => cases h

lemma stepAt_now (p : Store × Pc) : (stepAt p t).1.now = t := by
  rw [stepAt]
  cases hact : act (p.1.atTime t) p.2 with
  | none => rfl
  | some r => exact act_now hact

lemma stepAt_runs {ι : Type} [DecidableEq ι] (i : ι) :
    ∀ (ts : List Instant) (w : Pool ι Store Pc), (w.shared.now :: ts).IsChain (· ≤ ·) →
      ∃ as, (calls ι).machine.run w as =
        some (w.next i (ts.foldl stepAt (w.shared, w.calls i)).1
          (ts.foldl stepAt (w.shared, w.calls i)).2)
  | [], w, _ => ⟨[], by simp [Pool.next]⟩
  | t :: ts, w, hchain => by
      obtain ⟨hle, hrest⟩ := List.isChain_cons_cons.mp hchain
      obtain ⟨as, has⟩ := stepAt_run i w hle
      rw [← stepAt_now (t := t) (w.shared, w.calls i)] at hrest
      obtain ⟨bs, hbs⟩ := stepAt_runs i ts
        (w.next i (stepAt (w.shared, w.calls i) t).1 (stepAt (w.shared, w.calls i) t).2) hrest
      refine ⟨as ++ bs, Machine.run_append.mpr ⟨_, has, hbs.trans ?_⟩⟩
      simp [Pool.next]

/-- **A call is one of the interleaved calls**, with the clock at each of its moments in turn. -/
lemma visit_run {ι : Type} [DecidableEq ι] (i : ι) (w : Pool ι Store Pc)
    (hcall : w.calls i = .idle (.request policy [])) (hclock : w.shared.now ≤ v.loaded) :
    ∃ as, (calls ι).machine.run w as =
      some (w.next i (visit policy w.shared v).1 (visit policy w.shared v).2) := by
  have hchain : [w.shared.now, v.loaded, v.now, v.stored, v.written, v.mirrored].IsChain (· ≤ ·) := by
    simp [hclock, v.loaded_le, v.now_le, v.stored_le, v.written_le]
  have hruns := stepAt_runs i _ w hchain
  rw [hcall] at hruns
  exact hruns

lemma stepAt_load (ops : List Op) (h : (g.atTime t).key.get = some s) :
    stepAt (g, .idle (.request policy ops)) t = (g.atTime t, .got policy s ops) := by
  simp only [stepAt, act, h, Option.getD_some]

lemma stepAt_missing (ops : List Op) (h : (g.atTime t).key.get = none) :
    stepAt (g, .idle (.request policy ops)) t = (g.atTime t, .absent) := by
  simp only [stepAt, act, h, Option.getD_some]

lemma stepAt_dead (ops : List Op) (h : s.isLive t = false) :
    stepAt (g, .got policy s ops) t = (g.atTime t, .absent) := by
  simp [stepAt, act, h]

lemma stepAt_fresh (ops : List Op) (hlive : s.isLive t = true)
    (h : numSeconds (t - s.lastSeenAt) < 60) :
    stepAt (g, .got policy s ops) t = (g.atTime t, .holding s ops) := by
  simp [stepAt, act, hlive, Int.not_le.mpr h]

lemma stepAt_slide (ops : List Op) (hlive : s.isLive t = true)
    (h : 60 ≤ numSeconds (t - s.lastSeenAt)) :
    stepAt (g, .got policy s ops) t =
      (g.atTime t, .storing (slide policy t s) (.slid (mirrorDue policy s.lastSeenAt t) ops)) := by
  simp [stepAt, act, hlive, h]

lemma stepAt_absent : stepAt (g, .absent) t = (g.atTime t, .absent) := rfl

lemma stepAt_holding : stepAt (g, .holding s []) t = (g.atTime t, .holding s []) := rfl

lemma stepAt_unstored (next : Then)
    (h : numMilliseconds (min s.expiresAt s.idleExpiresAt - t) ≤ 0) :
    stepAt (g, .storing s next) t = (g.atTime t, afterStore s next) := by
  have hact : act (g.atTime t) (.storing s next) = _ := if_pos h
  rw [stepAt, hact]
  rfl

lemma stepAt_storing (next : Then)
    (h : ¬ numMilliseconds (min s.expiresAt s.idleExpiresAt - t) ≤ 0) :
    stepAt (g, .storing s next) t =
      (g.atTime t, .writing s (numMilliseconds (min s.expiresAt s.idleExpiresAt - t)) next) := by
  have hact : act (g.atTime t) (.storing s next) = _ := if_neg h
  rw [stepAt, hact]
  rfl

lemma stepAt_writing (ttlMs : ℤ) (next : Then) :
    stepAt (g, .writing s ttlMs next) t =
      ({ g.atTime t with key := Slot.setUntil s (t + ttlMs * 1000000) }, afterStore s next) := rfl

lemma stepAt_mirroring (m : MirrorWrite) (served : Bool) (ops : List Op) :
    stepAt (g, .mirroring s m served ops) t =
      ({ g.atTime t with row := m.apply s g.row }, .holding s ops) := rfl

/-! ## `store` -/

/-- When the key may be gone: what is left of a millisecond before the earlier deadline. -/
def SsoSession.keptUntil (s : SsoSession) : ℤ := min s.expiresAt s.idleExpiresAt - 999999

lemma lt_numMilliseconds_mul {d : ℤ} (h : 0 ≤ d) : d - 999999 ≤ numMilliseconds d * 1000000 := by
  rw [numMilliseconds, Int.tdiv_eq_ediv_of_nonneg h]
  omega

lemma sub_le_add_of_sub_le {m n t t' : ℤ} (h : m - t - 999999 ≤ n) (hle : t ≤ t') :
    m - 999999 ≤ t' + n := by omega

lemma keptUntil_le_of_unstored (h : numMilliseconds (min s.expiresAt s.idleExpiresAt - t) ≤ 0) :
    s.keptUntil ≤ t := by
  rw [SsoSession.keptUntil]
  rcases Int.le_total 0 (min s.expiresAt s.idleExpiresAt - t) with hd | hd
  · have := lt_numMilliseconds_mul hd
    omega
  · omega

/-- The lifetime sent with the key, counted from any later moment, reaches to within a millisecond
of the earlier deadline. -/
lemma keptUntil_le_deadline {t' : Instant} (hle : t ≤ t')
    (h : ¬ numMilliseconds (min s.expiresAt s.idleExpiresAt - t) ≤ 0) :
    s.keptUntil ≤ t' + numMilliseconds (min s.expiresAt s.idleExpiresAt - t) * 1000000 := by
  have hd : (0 : ℤ) ≤ min s.expiresAt s.idleExpiresAt - t := by
    have := numMilliseconds_mul_le (Int.not_le.mp h)
    omega
  exact sub_le_add_of_sub_le (lt_numMilliseconds_mul hd) hle

/-- The clock and what the key holds, once `store` has been through. -/
structure Wrote (s : SsoSession) (g g' : Store) (t : Instant) : Prop where
  now : g'.now = t
  row : g'.row = g.row
  lasts : g'.key.Lasts s s.keptUntil t
  held : ∀ s', g'.key.get = some s' → s' = s ∨ g.key.get = some s'

lemma Wrote.later {g' : Store} {t' : Instant} (h : Wrote s g g' t) (hle : t ≤ t') :
    Wrote s g (g'.atTime t') t' where
  now := rfl
  row := h.row
  lasts := by
    have hlasts := h.lasts
    rw [← h.now] at hlasts hle
    exact lasts_atTime hlasts hle
  held s' hs' := h.held s' (get_atTime hs')

lemma wrote_unstored (h : numMilliseconds (min s.expiresAt s.idleExpiresAt - t) ≤ 0) :
    Wrote s g (g.atTime t) t where
  now := rfl
  row := rfl
  lasts := .inr (keptUntil_le_of_unstored h)
  held _ hs' := .inr (get_atTime hs')

lemma wrote_written {t' : Instant} (hle : t ≤ t')
    (h : ¬ numMilliseconds (min s.expiresAt s.idleExpiresAt - t) ≤ 0) :
    Wrote s g
      { (g.atTime t).atTime t' with
        key := Slot.setUntil s
          (t' + numMilliseconds (min s.expiresAt s.idleExpiresAt - t) * 1000000) } t' where
  now := rfl
  row := rfl
  lasts := Slot.lasts_setUntil (keptUntil_le_deadline hle h)
  held _ hs' := .inl (Option.some.inj hs').symm

/-- `store` and what follows it in `get`: the session is returned, and the row is written if it is
due. -/
lemma finish_spec (mirror : Bool) (v : Visit) :
    ∃ g', Wrote s g g' v.mirrored ∧
      stepAt (stepAt (stepAt (g, .storing s (.slid mirror [])) v.stored) v.written) v.mirrored =
        ({ g' with row := if mirror then MirrorWrite.touch.apply s g.row else g.row },
          .holding s []) := by
  by_cases h : numMilliseconds (min s.expiresAt s.idleExpiresAt - v.stored) ≤ 0
  · have hwrote := ((wrote_unstored (g := g) h).later v.stored_le).later v.written_le
    refine ⟨_, hwrote, ?_⟩
    rw [stepAt_unstored _ h]
    cases mirror with
    | false => rfl
    | true =>
        rw [afterStore, stepAt_mirroring, stepAt_holding]
        rfl
  · have hwrote := (wrote_written (g := g) v.stored_le h).later v.written_le
    refine ⟨_, hwrote, ?_⟩
    rw [stepAt_storing _ h, stepAt_writing]
    cases mirror with
    | false => rfl
    | true =>
        rw [afterStore, stepAt_mirroring]
        rfl

/-! ## The outcomes of a call -/

/-- The clock goes through the moments of a call that writes nothing. -/
def Store.through (g : Store) (v : Visit) : Store :=
  ((((g.atTime v.loaded).atTime v.now).atTime v.stored).atTime v.written).atTime v.mirrored

lemma lasts_through {ends : Instant} (h : g.key.Lasts s ends g.now) (hclock : g.now ≤ v.loaded) :
    (g.through v).key.Lasts s ends (g.through v).now := by
  have hloaded := lasts_atTime h hclock
  have hread := lasts_atTime (t := v.now) hloaded v.loaded_le
  have hstored := lasts_atTime (t := v.stored) hread v.now_le
  have hwritten := lasts_atTime (t := v.written) hstored v.stored_le
  exact lasts_atTime (t := v.mirrored) hwritten v.written_le

lemma get_through (h : (g.through v).key.get = some s) : g.key.get = some s :=
  get_atTime (get_atTime (get_atTime (get_atTime (get_atTime h))))

lemma decided_missing (h : (g.atTime v.loaded).key.get = none) :
    decided policy g v = ((g.atTime v.loaded).atTime v.now, .absent) := by
  rw [decided, stepAt_missing [] h, stepAt_absent]

lemma decided_dead (h : (g.atTime v.loaded).key.get = some s) (hdead : s.isLive v.now = false) :
    decided policy g v = ((g.atTime v.loaded).atTime v.now, .absent) := by
  rw [decided, stepAt_load [] h, stepAt_dead [] hdead]

lemma decided_fresh (h : (g.atTime v.loaded).key.get = some s) (hlive : s.isLive v.now = true)
    (hfresh : ¬ 60 ≤ numSeconds (v.now - s.lastSeenAt)) :
    decided policy g v = ((g.atTime v.loaded).atTime v.now, .holding s []) := by
  rw [decided, stepAt_load [] h, stepAt_fresh [] hlive (Int.not_le.mp hfresh)]

lemma decided_slid (policy : SessionPolicy) (h : (g.atTime v.loaded).key.get = some s)
    (hlive : s.isLive v.now = true) (hslide : 60 ≤ numSeconds (v.now - s.lastSeenAt)) :
    decided policy g v = ((g.atTime v.loaded).atTime v.now,
      .storing (slide policy v.now s) (.slid (mirrorDue policy s.lastSeenAt v.now) [])) := by
  rw [decided, stepAt_load [] h, stepAt_slide [] hlive hslide]

lemma visit_absent (h : decided policy g v = ((g.atTime v.loaded).atTime v.now, .absent)) :
    visit policy g v = (g.through v, .absent) := by
  rw [visit, h, stepAt_absent, stepAt_absent, stepAt_absent]
  rfl

lemma visit_fresh (h : decided policy g v = ((g.atTime v.loaded).atTime v.now, .holding s [])) :
    visit policy g v = (g.through v, .holding s []) := by
  rw [visit, h, stepAt_holding, stepAt_holding, stepAt_holding]
  rfl

/-- The row after a slide from `s`. -/
def slidRow (policy : SessionPolicy) (row : SessionRow) (s : SsoSession) (now : Instant) : SessionRow :=
  if mirrorDue policy s.lastSeenAt now then MirrorWrite.touch.apply (slide policy now s) row else row

lemma visit_slid
    (h : decided policy g v = ((g.atTime v.loaded).atTime v.now,
      .storing (slide policy v.now s) (.slid (mirrorDue policy s.lastSeenAt v.now) []))) :
    ∃ g', Wrote (slide policy v.now s) ((g.atTime v.loaded).atTime v.now) g' v.mirrored ∧
      visit policy g v =
        ({ g' with row := slidRow policy g.row s v.now }, .holding (slide policy v.now s) []) := by
  obtain ⟨g', hwrote, hfinish⟩ := finish_spec (s := slide policy v.now s)
    (g := (g.atTime v.loaded).atTime v.now) (mirrorDue policy s.lastSeenAt v.now) v
  refine ⟨g', hwrote, ?_⟩
  rw [visit, h, hfinish]
  rfl

/-! ## What one call keeps -/

/-- The key holds `s`, to within a millisecond of its end, and the window was slid to `s` less than
a minute before the last call. -/
structure Kept (policy : SessionPolicy) (before : Instant) (s : SsoSession) (g : Store) : Prop where
  lasts : g.key.Lasts s s.keptUntil g.now
  window : min (s.lastSeenAt + seconds policy.idleTimeoutSecs) s.expiresAt ≤ s.idleExpiresAt
  recent : before < s.lastSeenAt + seconds 60

lemma window_slide :
    min ((slide policy t s).lastSeenAt + seconds policy.idleTimeoutSecs) (slide policy t s).expiresAt ≤
      (slide policy t s).idleExpiresAt := Int.le_refl _

lemma lt_deadline {now before last idle ends idleEnds : ℤ} (hrecent : before < last + seconds 60)
    (hwindow : min (last + seconds idle) ends ≤ idleEnds)
    (hgap : now + 999999 ≤ before + seconds (idle - 60)) (hend : now + 999999 < ends) :
    now + 999999 < min ends idleEnds := by
  simp only [seconds] at hrecent hwindow hgap
  omega

lemma lt_add_minute {now last : ℤ} (h : ¬ 60 ≤ numSeconds (now - last)) : now < last + seconds 60 := by
  rcases Int.le_total last now with hle | hle
  · rw [numSeconds_eq_ediv (by omega)] at h
    simp only [seconds]
    omega
  · simp only [seconds]
    omega

lemma Kept.in_time {before : Instant} (h : Kept policy before s g)
    (hgap : v.now + 999999 ≤ before + seconds (policy.idleTimeoutSecs - 60))
    (hend : v.now + 999999 < s.expiresAt) :
    v.now < s.keptUntil ∧ s.isLive v.now = true := by
  have hlt := lt_deadline h.recent h.window hgap hend
  refine ⟨Int.lt_sub_right_of_add_lt hlt, ?_⟩
  · obtain ⟨habsolute, hidle⟩ := lt_min_iff.mp
      (Int.lt_of_le_of_lt (Int.le_add_of_nonneg_right (by decide)) hlt)
    rw [SsoSession.isLive, decide_eq_true habsolute, decide_eq_true hidle]
    rfl

/-- **One call.**  If it comes in time it returns the session, and the next one finds it kept. -/
lemma visit_kept {before : Instant} (h : Kept policy before s g) (hclock : g.now ≤ v.loaded)
    (hgap : v.now + 999999 ≤ before + seconds (policy.idleTimeoutSecs - 60))
    (hend : v.now + 999999 < s.expiresAt) :
    ∃ s', (visit policy g v).2 = .holding s' [] ∧ s'.id = s.id ∧ s'.expiresAt = s.expiresAt ∧
      Kept policy v.now s' (visit policy g v).1 := by
  obtain ⟨hkept, hlive⟩ := h.in_time hgap hend
  have hget : (g.atTime v.loaded).key.get = some s :=
    (lasts_atTime h.lasts hclock).get (Int.lt_of_le_of_lt v.loaded_le hkept)
  by_cases hslide : 60 ≤ numSeconds (v.now - s.lastSeenAt)
  · obtain ⟨g', hwrote, hvisit⟩ := visit_slid (decided_slid policy hget hlive hslide)
    rw [hvisit]
    refine ⟨slide policy v.now s, rfl, rfl, rfl, ?_, window_slide, ?_⟩
    · have hlasts := hwrote.lasts
      rw [← hwrote.now] at hlasts
      exact hlasts
    · exact Int.lt_add_of_pos_right v.now (by decide)
  · rw [visit_fresh (decided_fresh hget hlive hslide)]
    exact ⟨s, rfl, rfl, rfl, lasts_through h.lasts hclock, h.window, lt_add_minute hslide⟩

/-! ## The mirror row -/

/-- The mirror interval a moment falls in. -/
def mirrorSlot (policy : SessionPolicy) (t : Instant) : ℤ := timestamp t / mirrorInterval policy

lemma mirrorInterval_pos : 0 < mirrorInterval policy :=
  Int.lt_of_lt_of_le (by decide) (le_max_left _ _)

lemma mirrorSlot_mono {t' : Instant} (h : t ≤ t') : mirrorSlot policy t ≤ mirrorSlot policy t' :=
  Int.ediv_le_ediv mirrorInterval_pos (Int.ediv_le_ediv (by decide) h)

lemma sub_lt_of_ediv_eq {n a b : ℤ} (hn : 0 < n) (h : a / n = b / n) : b - a < n := by
  have ha := Int.mul_ediv_add_emod a n
  have hb := Int.mul_ediv_add_emod b n
  have hmod := Int.emod_nonneg a (Int.ne_of_gt hn)
  have hlt := Int.emod_lt_of_pos b hn
  rw [h] at ha
  omega

lemma sub_lt_of_mirrorSlot_eq {t' : Instant} (h : mirrorSlot policy t = mirrorSlot policy t') :
    t' - t < seconds (mirrorInterval policy) := by
  rw [mirrorSlot, mirrorSlot, timestamp, timestamp,
    Int.ediv_ediv_of_nonneg (by decide), Int.ediv_ediv_of_nonneg (by decide)] at h
  rw [seconds, Int.mul_comm]
  have hpos : 0 < 1000000000 * mirrorInterval policy := Int.mul_pos (by decide) mirrorInterval_pos
  exact sub_lt_of_ediv_eq hpos h

/-- The row is in no earlier mirror interval than the key, and gives the session as long to go from
when it was last seen. -/
structure Mirrored (policy : SessionPolicy) (g : Store) : Prop where
  row_le : g.row.lastSeenAt ≤ g.now
  slot : ∀ s, g.key.get = some s → mirrorSlot policy s.lastSeenAt ≤ mirrorSlot policy g.row.lastSeenAt
  window : ∀ s, g.key.get = some s →
    min (g.row.lastSeenAt + seconds policy.idleTimeoutSecs) s.expiresAt ≤ g.row.idleExpiresAt

lemma mirrorDue_eq_false {t' : Instant} :
    mirrorDue policy t t' = false ↔ mirrorSlot policy t = mirrorSlot policy t' := by
  rw [mirrorDue, bne_eq_false_iff_eq]
  rfl

lemma le_of_slide (h : 60 ≤ numSeconds (t - s.lastSeenAt)) : s.lastSeenAt ≤ t := by
  by_contra hlt
  have hnonpos := numSeconds_nonpos (Int.sub_nonpos_of_le (Int.le_of_lt (Int.not_le.mp hlt)))
  exact absurd (Int.le_trans h hnonpos) (by decide)

lemma Visit.now_le_mirrored (v : Visit) : v.now ≤ v.mirrored :=
  Int.le_trans v.now_le (Int.le_trans v.stored_le v.written_le)

lemma Visit.loaded_le_mirrored (v : Visit) : v.loaded ≤ v.mirrored :=
  Int.le_trans v.loaded_le v.now_le_mirrored

lemma Mirrored.through (h : Mirrored policy g) (hclock : g.now ≤ v.loaded) :
    Mirrored policy (g.through v) where
  row_le := Int.le_trans h.row_le (Int.le_trans hclock v.loaded_le_mirrored)
  slot s hs := h.slot s (get_through hs)
  window s hs := h.window s (get_through hs)

/-- A slide that is mirrored starts a mirror interval of the row; one that is not falls in the
interval of the slide before. -/
lemma Mirrored.slid {g' : Store} (h : Mirrored policy g) (hclock : g.now ≤ v.loaded)
    (hget : (g.atTime v.loaded).key.get = some s) (hslide : 60 ≤ numSeconds (v.now - s.lastSeenAt))
    (hwrote : Wrote (slide policy v.now s) ((g.atTime v.loaded).atTime v.now) g' v.mirrored) :
    Mirrored policy { g' with row := slidRow policy g.row s v.now } := by
  have hold := get_atTime hget
  have hle : mirrorSlot policy s.lastSeenAt ≤ mirrorSlot policy v.now :=
    mirrorSlot_mono (le_of_slide hslide)
  have hheld : ∀ s', g'.key.get = some s' → s' = slide policy v.now s ∨ s' = s := by
    intro s' hs'
    rcases hwrote.held s' hs' with heq | hbefore
    · exact .inl heq
    · exact .inr (Option.some.inj ((get_atTime (get_atTime hbefore)).symm.trans hold))
  cases hdue : mirrorDue policy s.lastSeenAt v.now with
  | true =>
      refine ⟨?_, ?_, ?_⟩ <;> simp only [slidRow, hdue, if_true]
      · rw [hwrote.now]
        exact v.now_le_mirrored
      · intro s' hs'
        rcases hheld s' hs' with rfl | rfl
        · exact Int.le_refl _
        · exact hle
      · intro s' hs'
        rcases hheld s' hs' with rfl | rfl
        · exact Int.le_refl _
        · exact Int.le_refl _
  | false =>
      refine ⟨?_, ?_, ?_⟩ <;> simp only [slidRow, hdue, Bool.false_eq_true, if_false]
      · rw [hwrote.now]
        exact Int.le_trans h.row_le (Int.le_trans hclock v.loaded_le_mirrored)
      · intro s' hs'
        rcases hheld s' hs' with rfl | rfl
        · exact (mirrorDue_eq_false.mp hdue).symm.trans_le (h.slot s hold)
        · exact h.slot s' hold
      · intro s' hs'
        rcases hheld s' hs' with rfl | rfl
        · exact h.window s hold
        · exact h.window s' hold

/-- **One call, for the row.** -/
lemma visit_mirrored (h : Mirrored policy g) (hclock : g.now ≤ v.loaded) :
    Mirrored policy (visit policy g v).1 := by
  cases hget : (g.atTime v.loaded).key.get with
  | none =>
      rw [visit_absent (decided_missing hget)]
      exact h.through hclock
  | some s =>
      cases hlive : s.isLive v.now with
      | false =>
          rw [visit_absent (decided_dead hget hlive)]
          exact h.through hclock
      | true =>
          by_cases hslide : 60 ≤ numSeconds (v.now - s.lastSeenAt)
          · obtain ⟨g', hwrote, hvisit⟩ :=
              visit_slid (decided_slid policy hget hlive hslide)
            rw [hvisit]
            exact h.slid hclock hget hslide hwrote
          · rw [visit_fresh (decided_fresh hget hlive hslide)]
            exact h.through hclock

lemma trail_lt {now last idle ends rowIdle every : ℤ} (hwindow : min (last + idle) ends ≤ rowIdle)
    (h : now - last < every) (hpos : 0 < every) : min (now + idle) ends - rowIdle < every := by
  omega

lemma slide_trails (h : Mirrored policy g) (hclock : g.now ≤ v.loaded)
    (hget : (g.atTime v.loaded).key.get = some s) :
    (slide policy v.now s).idleExpiresAt - (slidRow policy g.row s v.now).idleExpiresAt <
      seconds (mirrorInterval policy) := by
  have hpos : 0 < seconds (mirrorInterval policy) := Int.mul_pos mirrorInterval_pos (by decide)
  cases hdue : mirrorDue policy s.lastSeenAt v.now with
  | true =>
      simp only [slidRow, hdue, if_true, MirrorWrite.apply, Int.sub_self]
      exact hpos
  | false =>
      simp only [slidRow, hdue, Bool.false_eq_true, if_false]
      have hslot := mirrorDue_eq_false.mp hdue
      have hrow := h.slot s (get_atTime hget)
      have hnow : mirrorSlot policy g.row.lastSeenAt ≤ mirrorSlot policy v.now :=
        mirrorSlot_mono (Int.le_trans h.row_le (Int.le_trans hclock v.loaded_le))
      have heq : mirrorSlot policy g.row.lastSeenAt = mirrorSlot policy v.now :=
        Int.le_antisymm hnow (hslot ▸ hrow)
      exact trail_lt (h.window s (get_atTime hget)) (sub_lt_of_mirrorSlot_eq heq) hpos

/-- **After a slide.**  Either the row was written with it, or it was last written in the mirror
interval of the slide. -/
lemma visit_trails (h : Mirrored policy g) (hclock : g.now ≤ v.loaded) : Trails policy g v := by
  intro s' next hdecided
  cases hget : (g.atTime v.loaded).key.get with
  | none =>
      rw [decided_missing hget] at hdecided
      cases hdecided
  | some s =>
      cases hlive : s.isLive v.now with
      | false =>
          rw [decided_dead hget hlive] at hdecided
          cases hdecided
      | true =>
          by_cases hslide : 60 ≤ numSeconds (v.now - s.lastSeenAt)
          · have hslid := decided_slid policy hget hlive hslide
            obtain ⟨g', -, hvisit⟩ := visit_slid hslid
            rw [hslid] at hdecided
            cases hdecided
            rw [hvisit]
            exact slide_trails h hclock hget
          · rw [decided_fresh hget hlive hslide] at hdecided
            cases hdecided

/-! ## From the opening on -/

lemma session_lastSeenAt (policy : OpeningPolicy) (o : Opening) :
    (o.session policy).lastSeenAt = o.now := by
  rw [Opening.session]
  cases o.who with
  | signIn req => rfl
  | administrator impersonator lifetime ip userAgent => rfl

lemma session_id (policy : OpeningPolicy) (o : Opening) : (o.session policy).id = o.id := by
  rw [Opening.session]
  cases o.who with
  | signIn req => rfl
  | administrator impersonator lifetime ip userAgent => rfl

lemma session_window (policy : OpeningPolicy) (o : Opening) :
    min ((o.session policy).lastSeenAt + seconds policy.idleTimeoutSecs)
      (o.session policy).expiresAt ≤ (o.session policy).idleExpiresAt := by
  rw [session_lastSeenAt, Opening.session]
  cases o.who with
  | signIn req => exact Int.min_le_left _ _
  | administrator impersonator lifetime ip userAgent => exact Int.le_refl _

lemma opened_wrote (policy : OpeningPolicy) (o : Opening) :
    Wrote (o.session policy)
      { now := o.now, key := none, row := (o.session policy).toRow, tracked := true,
        tokensRevoked := false }
      (opened policy o) o.written := by
  by_cases h : numMilliseconds (min (o.session policy).expiresAt (o.session policy).idleExpiresAt -
      o.stored) ≤ 0
  · rw [opened, stepAt_unstored _ h, afterStore, stepAt_holding]
    exact (wrote_unstored h).later o.stored_le
  · rw [opened, stepAt_storing _ h, stepAt_writing]
    exact wrote_written o.stored_le h

lemma opened_kept (policy : OpeningPolicy) (o : Opening) :
    Kept policy.toSessionPolicy o.now (o.session policy) (opened policy o) where
  lasts := by
    have hwrote := opened_wrote policy o
    have hlasts := hwrote.lasts
    rw [← hwrote.now] at hlasts
    exact hlasts
  window := session_window policy o
  recent := by
    rw [session_lastSeenAt]
    exact Int.lt_add_of_pos_right o.now (by decide)

lemma opened_mirrored (policy : OpeningPolicy) (o : Opening) :
    Mirrored policy.toSessionPolicy (opened policy o) := by
  have hwrote := opened_wrote policy o
  have hheld : ∀ s, (opened policy o).key.get = some s → s = o.session policy := by
    intro s hs
    rcases hwrote.held s hs with heq | hbefore
    · exact heq
    · cases hbefore
  refine ⟨?_, ?_, ?_⟩
  · rw [hwrote.row, hwrote.now]
    show (o.session policy).lastSeenAt ≤ o.written
    rw [session_lastSeenAt]
    exact Int.le_trans o.now_le o.stored_le
  · intro s hs
    rw [hheld s hs, hwrote.row]
    exact Int.le_refl _
  · intro s hs
    rw [hheld s hs, hwrote.row]
    exact session_window policy o

lemma activity_step {g' : Store} (h : (activity policy).step g v = some g') :
    g.now ≤ v.loaded ∧ g' = (visit policy g v).1 := by
  simp only [activity] at h
  split_ifs at h with hclock
  exact ⟨hclock, (Option.some.inj h).symm⟩

lemma meets_returns : ∀ (vs : List Visit) {g g' : Store} {s : SsoSession} {before : Instant},
    Kept policy before s g → (activity policy).run g vs = some g' →
    Spaced policy 999999 s.expiresAt before vs → (activity policy).Meets (Returns policy s.id) g vs
  | [], _, _, _, _, _, _, _ => trivial
  | v :: vs, g, g', s, before, hkept, hrun, hspaced => by
      obtain ⟨hgap, hend, hspaced'⟩ := hspaced
      obtain ⟨u, hstep, hrest⟩ := Machine.run_cons.mp hrun
      obtain ⟨hclock, rfl⟩ := activity_step hstep
      obtain ⟨s', hreturned, hid, hends, hkept'⟩ := visit_kept hkept hclock hgap hend
      refine ⟨⟨s', hreturned, hid⟩, ?_⟩
      rw [hstep, Option.elim_some, ← hid]
      exact meets_returns vs hkept' hrest (hends ▸ hspaced')

lemma meets_trails : ∀ (vs : List Visit) {g g' : Store},
    Mirrored policy g → (activity policy).run g vs = some g' →
    (activity policy).Meets (Trails policy) g vs
  | [], _, _, _, _ => trivial
  | v :: vs, g, g', hmirrored, hrun => by
      obtain ⟨u, hstep, hrest⟩ := Machine.run_cons.mp hrun
      obtain ⟨hclock, rfl⟩ := activity_step hstep
      refine ⟨visit_trails hmirrored hclock, ?_⟩
      rw [hstep, Option.elim_some]
      exact meets_trails vs (visit_mirrored hmirrored hclock) hrest

/-- **An active session stays alive.**  Calls one after the other, each a minute and the part of a
millisecond less than the idle timeout after the one before (the opening counts as the first) and
that part before the absolute end, all return the session.  However the calls are spaced, after
every slide the row's idle expiry is less than a mirror interval before the session's. -/
theorem active_session_stays (policy : OpeningPolicy) (o : Opening) (vs : List Visit) (g : Store)
    (hrun : (activity policy.toSessionPolicy).run (opened policy o) vs = some g) :
    (Spaced policy.toSessionPolicy 999999 (o.session policy).expiresAt o.now vs →
      (activity policy.toSessionPolicy).Meets (Returns policy.toSessionPolicy o.id)
        (opened policy o) vs) ∧
    (activity policy.toSessionPolicy).Meets (Trails policy.toSessionPolicy) (opened policy o) vs := by
  refine ⟨?_, meets_trails vs (opened_mirrored policy o) hrun⟩
  intro hspaced
  have hmeets := meets_returns vs (opened_kept policy o) hrun hspaced
  rw [session_id] at hmeets
  exact hmeets

def briefPolicy : OpeningPolicy :=
  { idleTimeoutSecs := 120, absoluteTimeoutSecs := 600, maxConcurrent := 0 }

def briefOpening : Opening where
  tenantId := 1
  userId := 7
  id := 3
  who := .signIn ⟨["pwd"], none, none, none, none⟩
  now := 900000
  stored := 900001
  written := 900001
  now_le := by decide
  stored_le := by decide

def visitAt (t : Instant) : Visit := ⟨t, t, t, t, t, le_rfl, le_rfl, le_rfl, le_rfl⟩

/-- One call that slides nothing, one that slides the window, and one that relies on it. -/
theorem active_session_stays_over_a_slide :
    (activity briefPolicy.toSessionPolicy).Meets (Returns briefPolicy.toSessionPolicy 3)
      (opened briefPolicy briefOpening)
      [visitAt (seconds 59), visitAt (seconds 118), visitAt (seconds 177)] := by
  obtain ⟨g, hrun, -⟩ : ∃ g, (activity briefPolicy.toSessionPolicy).run
      (opened briefPolicy briefOpening)
      [visitAt (seconds 59), visitAt (seconds 118), visitAt (seconds 177)] = some g ∧
        decide (g.now = seconds 177) = true :=
    Machine.exists_run_of_any (by decide +kernel)
  exact (active_session_stays briefPolicy briefOpening
    [visitAt (seconds 59), visitAt (seconds 118), visitAt (seconds 177)] g hrun).1
    (by decide +kernel)

/-- **The key is gone before its time.**  The sign-in's key is sent with 119 999 ms, less than the
two minutes from the sign-in.  The first call comes 59.9999 s after the sign-in and slides nothing;
the second, a minute less than the idle timeout after the first, finds no key. -/
theorem lapses_early : ∃ g,
    (activity briefPolicy.toSessionPolicy).run (opened briefPolicy briefOpening)
      [visitAt 60000800000, visitAt 120000800000] = some g ∧
    Spaced briefPolicy.toSessionPolicy 0 (briefOpening.session briefPolicy).expiresAt briefOpening.now
      [visitAt 60000800000, visitAt 120000800000] ∧
    ¬ (activity briefPolicy.toSessionPolicy).Meets (Returns briefPolicy.toSessionPolicy 3)
      (opened briefPolicy briefOpening) [visitAt 60000800000, visitAt 120000800000] := by
  refine ⟨_, rfl, by decide +kernel, ?_⟩
  intro hmeets
  obtain ⟨-, hrest⟩ := Machine.Meets.of_cons hmeets rfl
  obtain ⟨⟨s, hreturned, -⟩, -⟩ := hrest
  have habsent : (visit briefPolicy.toSessionPolicy
      (visit briefPolicy.toSessionPolicy (opened briefPolicy briefOpening) (visitAt 60000800000)).1
      (visitAt 120000800000)).2 = .absent := by decide +kernel
  cases habsent.symm.trans hreturned

end Ridm.Sessions
