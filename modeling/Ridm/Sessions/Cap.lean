import Mathlib.Data.List.Sort
import Ridm.Lib.Ranking
import Ridm.Sessions.Model

/-!
# The cap on concurrent sessions

`create`, `create_impersonated` and `list_live_for_user` of `api/src/services/sessions.rs`, for the
sessions of one user.  Each session is a Valkey key of its own; their ids are in one set, which lives
as long as the longest of them.  `create` counts what the set leads to and ends the oldest of it, so
that the cap holds; sessions an administrator opened as the user are in the same set, are counted and
are ended like the user's own.

`cap_ends_oldest_own_iff` says, for every run, when a `create` ends the user's own sessions that it
must and no others.  Each call is made at one moment.
-/

namespace Ridm.Sessions

/-- `SessionPolicy`, as far as opening a session reads it. -/
structure OpeningPolicy extends SessionPolicy where
  absoluteTimeoutSecs : ℕ
  maxConcurrent : ℕ

/-- What Valkey holds of a user's sessions: the sessions and the set of their ids, each with its
deadline. -/
structure UserSessions where
  stored : List (SsoSession × Instant)
  tracked : Option (List Uuid × Instant)

namespace UserSessions

variable (w : UserSessions) (now : Instant)

/-- `GET` of a session's key. -/
def load (id : Uuid) : Option SsoSession :=
  (w.stored.find? fun e => e.1.id == id && decide (now < e.2)).map Prod.fst

/-- `SMEMBERS`. -/
def trackedIds : List Uuid :=
  match w.tracked with
  | some (ids, ends) => if now < ends then ids else []
  | none => []

/-- `SREM`; a set that is empty is gone. -/
def srem (ids : List Uuid) : UserSessions :=
  { w with tracked :=
      match w.tracked with
      | some (members, ends) =>
          if members.all (ids.contains ·) then none
          else some (members.filter (fun m => !ids.contains m), ends)
      | none => none }

/-- `add_to_set_for_at_least`: `SADD`, `EXPIRE … NX` and `EXPIRE … GT`. -/
def addToSetForAtLeast (id : Uuid) (ttl : ℤ) : UserSessions :=
  { w with tracked :=
      match w.tracked with
      | some (members, ends) =>
          if now < ends then some (members.insert id, max ends (now + seconds ttl))
          else some ([id], now + seconds ttl)
      | none => some ([id], now + seconds ttl) }

def store (s : SsoSession) : UserSessions :=
  let ttl := numMilliseconds (min s.expiresAt s.idleExpiresAt - now)
  if ttl ≤ 0 then w
  else { w with stored := (s, now + ttl * 1000000) :: w.stored.filter (·.1.id != s.id) }

def track (s : SsoSession) : UserSessions :=
  w.addToSetForAtLeast now s.id (max 60 (numSeconds (s.expiresAt - now)))

/-- `revoke`, as far as Valkey keeps the user's sessions: the key and the id are gone. -/
def revoke (id : Uuid) : UserSessions :=
  { w with stored := w.stored.filter (·.1.id != id) }.srem [id]

end UserSessions

/-- The order of `list_live_for_user`. -/
def older (a b : SsoSession) : Prop :=
  a.createdAt < b.createdAt ∨ (a.createdAt = b.createdAt ∧ a.id < b.id)

instance : DecidableRel older := fun a b =>
  inferInstanceAs (Decidable (a.createdAt < b.createdAt ∨ (a.createdAt = b.createdAt ∧ a.id < b.id)))

def notYounger (a b : SsoSession) : Prop := ¬ older b a

instance : DecidableRel notYounger := fun a b => inferInstanceAs (Decidable (¬ older b a))

/-- The sessions a user's set leads to, in no order. -/
def foundSessions (w : UserSessions) (userId : Uuid) (now : Instant) : List SsoSession :=
  ((w.trackedIds now).filterMap (w.load now)).filter fun s => s.isLive now && s.userId == userId

/-- `list_live_for_user`: the sessions, oldest first. -/
def listLiveForUser (w : UserSessions) (userId : Uuid) (now : Instant) : List SsoSession :=
  (foundSessions w userId now).insertionSort notYounger

/-- `list_live_for_user` drops the ids of sessions that are gone. -/
def pruneTracked (w : UserSessions) (userId : Uuid) (now : Instant) : UserSessions :=
  w.srem ((w.trackedIds now).filter fun id => !((foundSessions w userId now).map SsoSession.id).contains id)

/-- The request that opens a session. -/
structure NewSession where
  amr : List String
  acr : Option String
  ip : Option String
  userAgent : Option String
  deviceId : Option Uuid

/-- The session `create` opens. -/
def newSession (tenantId userId id : Uuid) (req : NewSession) (policy : OpeningPolicy) (now : Instant) :
    SsoSession where
  id := id
  tenantId := tenantId
  userId := userId
  authTime := now
  amr := req.amr
  acr := req.acr
  ip := req.ip
  userAgent := req.userAgent
  deviceId := req.deviceId
  orgId := none
  impersonator := none
  createdAt := now
  lastSeenAt := now
  expiresAt := now + seconds policy.absoluteTimeoutSecs
  idleExpiresAt := now + seconds policy.idleTimeoutSecs

/-- The session `create_impersonated` opens. -/
def newImpersonatedSession (tenantId userId id : Uuid) (impersonator : Impersonator) (lifetime : ℤ)
    (ip userAgent : Option String) (policy : OpeningPolicy) (now : Instant) : SsoSession where
  id := id
  tenantId := tenantId
  userId := userId
  authTime := now
  amr := []
  acr := none
  ip := ip
  userAgent := userAgent
  deviceId := none
  orgId := none
  impersonator := some impersonator
  createdAt := now
  lastSeenAt := now
  expiresAt := now + min lifetime (seconds policy.absoluteTimeoutSecs)
  idleExpiresAt := min (now + seconds policy.idleTimeoutSecs)
    (now + min lifetime (seconds policy.absoluteTimeoutSecs))

/-- The sessions `create` ends: the oldest of those it counts. -/
def excessSessions (w : UserSessions) (userId : Uuid) (policy : OpeningPolicy) (now : Instant) :
    List SsoSession :=
  (listLiveForUser w userId now).take ((listLiveForUser w userId now).length + 1 - policy.maxConcurrent)

/-- `create` up to the new session. -/
def makeRoom (w : UserSessions) (userId : Uuid) (policy : OpeningPolicy) (now : Instant) :
    UserSessions :=
  if policy.maxConcurrent = 0 then w
  else (excessSessions w userId policy now).foldl (fun w old => w.revoke old.id)
    (pruneTracked w userId now)

/-- `store` and `track`. -/
def openSession (w : UserSessions) (s : SsoSession) (now : Instant) : UserSessions :=
  (w.store now s).track now s

def create (w : UserSessions) (tenantId userId id : Uuid) (req : NewSession) (policy : OpeningPolicy)
    (now : Instant) : UserSessions :=
  openSession (makeRoom w userId policy now) (newSession tenantId userId id req policy now) now

def createImpersonated (w : UserSessions) (tenantId userId id : Uuid) (impersonator : Impersonator)
    (lifetime : ℤ) (ip userAgent : Option String) (policy : OpeningPolicy) (now : Instant) :
    UserSessions :=
  openSession w
    (newImpersonatedSession tenantId userId id impersonator lifetime ip userAgent policy now) now

/-! ## Runs -/

/-- A user's sessions, the time, and the ids that were given out (`Uuid::now_v7` gives none twice). -/
structure CapWorld where
  clock : Instant
  used : List Uuid
  sessions : UserSessions

/-- Before the first call. -/
def CapWorld.initial (clock : Instant) : CapWorld := ⟨clock, [], ⟨[], none⟩⟩

/-- The calls of a run, each with its time, the new session's id and the tenant's policy then. -/
inductive CapCall
  | create (now : Instant) (id : Uuid) (policy : OpeningPolicy) (req : NewSession)
  | createImpersonated (now : Instant) (id : Uuid) (policy : OpeningPolicy)
      (impersonator : Impersonator) (lifetime : ℤ) (ip userAgent : Option String)

/-- Calls for one user, one after another. -/
def capMachine (tenantId userId : Uuid) : Machine CapWorld CapCall where
  step w
    | .create now id policy req =>
        if w.clock ≤ now ∧ id ∉ w.used then
          some ⟨now, id :: w.used, create w.sessions tenantId userId id req policy now⟩
        else none
    | .createImpersonated now id policy impersonator lifetime ip userAgent =>
        if w.clock ≤ now ∧ id ∉ w.used then
          some ⟨now, id :: w.used, createImpersonated w.sessions tenantId userId id impersonator
            lifetime ip userAgent policy now⟩
        else none

/-- The live sessions the user opened. -/
def ownLive (w : UserSessions) (now : Instant) : List SsoSession :=
  (w.stored.map Prod.fst).filter fun s =>
    (w.load now s.id == some s) && s.isLive now && s.impersonator.isNone

/-- The live sessions that an administrator opened as the user, as far as they are counted. -/
def impersonatedLive (w : UserSessions) (userId : Uuid) (now : Instant) : List SsoSession :=
  (listLiveForUser w userId now).filter fun s => s.impersonator.isSome

/-- The sessions the user opened that were live before and are gone. -/
def endedOwn (w w' : UserSessions) (now : Instant) : List SsoSession :=
  (ownLive w now).filter fun s => (w'.load now s.id).isNone

/-! ## What every run keeps -/

/-- What holds of a user's sessions at a time, when these ids were given out: sessions are stored under
one id each and no longer than they are live, and the set leads to those the user opened. -/
structure Tidy (userId : Uuid) (used : List Uuid) (clock : Instant) (w : UserSessions) : Prop where
  ids_nodup : (w.stored.map (·.1.id)).Nodup
  ids_used : ∀ e ∈ w.stored, e.1.id ∈ used
  users : ∀ e ∈ w.stored, e.1.userId = userId
  deadlines : ∀ e ∈ w.stored, e.2 ≤ min e.1.expiresAt e.1.idleExpiresAt
  tracked_nodup : ∀ ids ends, w.tracked = some (ids, ends) → ids.Nodup
  tracked_own : ∀ e ∈ w.stored, e.1.impersonator = none → clock < e.2 →
    ∃ ids ends, w.tracked = some (ids, ends) ∧ e.1.id ∈ ids ∧ e.2 ≤ ends

section Tidy

variable {tenantId userId id : Uuid} {used ids : List Uuid} {clock now : Instant} {w : UserSessions}
  {s : SsoSession}

lemma Tidy.later (h : Tidy userId used clock w) (hle : clock ≤ now) : Tidy userId used now w :=
  { h with tracked_own := fun e he hown hlt => h.tracked_own e he hown (lt_of_le_of_lt hle hlt) }

lemma load_eq_some (hnodup : (w.stored.map (·.1.id)).Nodup) :
    w.load now id = some s ↔ ∃ ends, (s, ends) ∈ w.stored ∧ s.id = id ∧ now < ends := by
  rw [UserSessions.load, Option.map_eq_some_iff]
  constructor
  · rintro ⟨⟨s', ends⟩, hfind, rfl⟩
    have hpos := List.find?_some hfind
    simp only [Bool.and_eq_true, beq_iff_eq, decide_eq_true_eq] at hpos
    exact ⟨ends, List.mem_of_find?_eq_some hfind, hpos.1, hpos.2⟩
  · rintro ⟨ends, hmem, rfl, hlt⟩
    cases hfind : w.stored.find? fun e => e.1.id == s.id && decide (now < e.2) with
    | none =>
        rw [List.find?_eq_none] at hfind
        exact absurd (hfind _ hmem) (by simp [hlt])
    | some e =>
        have hpos := List.find?_some hfind
        simp only [Bool.and_eq_true, beq_iff_eq] at hpos
        have heq := List.inj_on_of_nodup_map hnodup (List.mem_of_find?_eq_some hfind) hmem hpos.1
        exact ⟨e, rfl, by rw [heq]⟩

variable {e : SsoSession × Instant} {ends : Instant}

lemma Tidy.isLive (h : Tidy userId used clock w) (hmem : (s, ends) ∈ w.stored)
    (hlt : now < ends) : s.isLive now = true := by
  have hends := lt_min_iff.mp (lt_of_lt_of_le hlt (h.deadlines _ hmem))
  simp [SsoSession.isLive, hends.1, hends.2]

lemma Tidy.mem_ownLive (h : Tidy userId used clock w) : s ∈ ownLive w now ↔
    ∃ ends, (s, ends) ∈ w.stored ∧ now < ends ∧ s.impersonator = none := by
  simp only [ownLive, List.mem_filter, List.mem_map, Bool.and_eq_true, beq_iff_eq,
    load_eq_some h.ids_nodup, Option.isNone_iff_eq_none]
  constructor
  · rintro ⟨-, ⟨⟨ends, hmem, -, hlt⟩, -⟩, hown⟩
    exact ⟨ends, hmem, hlt, hown⟩
  · rintro ⟨ends, hmem, hlt, hown⟩
    exact ⟨⟨_, hmem, rfl⟩, ⟨⟨ends, hmem, trivial, hlt⟩, h.isLive hmem hlt⟩, hown⟩

lemma Tidy.mem_foundSessions (h : Tidy userId used clock w) : s ∈ foundSessions w userId now ↔
    s.id ∈ w.trackedIds now ∧ ∃ ends, (s, ends) ∈ w.stored ∧ now < ends := by
  simp only [foundSessions, List.mem_filter, List.mem_filterMap, Bool.and_eq_true, beq_iff_eq]
  constructor
  · rintro ⟨⟨id, hid, hload⟩, -⟩
    obtain ⟨ends, hmem, rfl, hlt⟩ := (load_eq_some h.ids_nodup).mp hload
    exact ⟨hid, ends, hmem, hlt⟩
  · rintro ⟨hid, ends, hmem, hlt⟩
    exact ⟨⟨s.id, hid, (load_eq_some h.ids_nodup).mpr ⟨ends, hmem, rfl, hlt⟩⟩,
      h.isLive hmem hlt, h.users _ hmem⟩

lemma Tidy.own_found (h : Tidy userId used now w) (hmem : (s, ends) ∈ w.stored)
    (hlt : now < ends) (hown : s.impersonator = none) : s ∈ foundSessions w userId now := by
  obtain ⟨ids, until_, htracked, hid, hle⟩ := h.tracked_own _ hmem hown hlt
  refine h.mem_foundSessions.mpr ⟨?_, ends, hmem, hlt⟩
  simp only [UserSessions.trackedIds, htracked]
  rw [if_pos (lt_of_lt_of_le hlt hle)]
  exact hid

lemma srem_tracked {members : List Uuid} (htracked : w.tracked = some (members, ends))
    (hid : id ∈ members) (hnot : id ∉ ids) : ∃ members', (w.srem ids).tracked = some (members', ends) ∧
      id ∈ members' := by
  refine ⟨members.filter fun m => !ids.contains m, ?_, List.mem_filter.mpr ⟨hid, by simpa using hnot⟩⟩
  simp only [UserSessions.srem, htracked]
  rw [if_neg]
  simp only [List.all_eq_true, List.contains_iff_mem, not_forall]
  exact ⟨id, hid, hnot⟩

lemma Tidy.srem (h : Tidy userId used clock w)
    (hnot : ∀ e ∈ w.stored, e.1.impersonator = none → clock < e.2 → e.1.id ∉ ids) :
    Tidy userId used clock (w.srem ids) where
  ids_nodup := h.ids_nodup
  ids_used := h.ids_used
  users := h.users
  deadlines := h.deadlines
  tracked_nodup := by
    intro members ends htracked
    simp only [UserSessions.srem] at htracked
    split at htracked
    · rename_i members' ends' hbefore
      split_ifs at htracked
      cases htracked
      exact (h.tracked_nodup _ _ hbefore).filter _
    · cases htracked
  tracked_own := by
    intro e he hown hlt
    obtain ⟨members, ends, htracked, hid, hle⟩ := h.tracked_own e he hown hlt
    obtain ⟨members', htracked', hid'⟩ := srem_tracked htracked hid (hnot e he hown hlt)
    exact ⟨members', ends, htracked', hid', hle⟩

lemma Tidy.prune (h : Tidy userId used now w) : Tidy userId used now (pruneTracked w userId now) := by
  refine h.srem fun e he hown hlt hmem => ?_
  have hfound := h.own_found (s := e.1) he hlt hown
  simp only [List.mem_filter, Bool.not_eq_true', List.contains_eq_mem, decide_eq_false_iff_not] at hmem
  exact hmem.2 (List.mem_map_of_mem hfound)

lemma Tidy.revoke (h : Tidy userId used clock w) : Tidy userId used clock (w.revoke id) := by
  have hsub : (w.stored.filter (·.1.id != id)).Sublist w.stored := List.filter_sublist
  have hfilter : Tidy userId used clock { w with stored := w.stored.filter (·.1.id != id) } :=
    { ids_nodup := h.ids_nodup.sublist (hsub.map _)
      ids_used := fun e he => h.ids_used e (hsub.subset he)
      users := fun e he => h.users e (hsub.subset he)
      deadlines := fun e he => h.deadlines e (hsub.subset he)
      tracked_nodup := h.tracked_nodup
      tracked_own := fun e he => h.tracked_own e (hsub.subset he) }
  refine hfilter.srem fun e he _ _ hmem => ?_
  have hne := (List.mem_filter.mp he).2
  simp only [List.mem_singleton] at hmem
  simp [hmem] at hne

lemma mem_store (he : e ∈ (w.store now s).stored) :
    e ∈ w.stored ∨ (e.1 = s ∧ e.2 ≤ min s.expiresAt s.idleExpiresAt) := by
  simp only [UserSessions.store] at he
  split_ifs at he with httl
  · exact .inl he
  · rcases List.mem_cons.mp he with rfl | he
    · have := numMilliseconds_mul_le (not_le.mp httl)
      refine .inr ⟨rfl, ?_⟩
      calc now + numMilliseconds (min s.expiresAt s.idleExpiresAt - now) * 1000000
          ≤ now + (min s.expiresAt s.idleExpiresAt - now) := Int.add_le_add_left this now
        _ = min s.expiresAt s.idleExpiresAt := add_sub_self _ _
    · exact .inl (List.mem_filter.mp he).1

lemma store_ids_nodup (hnodup : (w.stored.map (·.1.id)).Nodup) :
    ((w.store now s).stored.map (·.1.id)).Nodup := by
  simp only [UserSessions.store]
  split_ifs with httl
  · exact hnodup
  · rw [List.map_cons, List.nodup_cons]
    refine ⟨?_, hnodup.sublist (List.filter_sublist.map _)⟩
    simp only [List.mem_map, List.mem_filter, bne_iff_ne, not_exists, not_and]
    rintro e ⟨-, hne⟩
    exact hne

@[simp] lemma store_tracked : (w.store now s).tracked = w.tracked := by
  rw [UserSessions.store]
  split_ifs <;> rfl

@[simp] lemma track_stored : (w.track now s).stored = w.stored := rfl

/-- The set after `track`: it has the new id, and all it had if it was there, for as long as it would
have and as long as the session. -/
lemma track_tracked (hnodup : ∀ ids ends, w.tracked = some (ids, ends) → ids.Nodup) :
    ∃ ids ends, (w.track now s).tracked = some (ids, ends) ∧ ids.Nodup ∧ s.id ∈ ids ∧
      now + seconds (max 60 (numSeconds (s.expiresAt - now))) ≤ ends ∧
      ∀ members until_, w.tracked = some (members, until_) → now < until_ →
        members ⊆ ids ∧ until_ ≤ ends := by
  simp only [UserSessions.track, UserSessions.addToSetForAtLeast]
  cases htracked : w.tracked with
  | none => exact ⟨_, _, rfl, List.nodup_singleton _, List.mem_singleton_self _, le_refl _, by simp⟩
  | some t =>
      obtain ⟨members, until_⟩ := t
      simp only
      split_ifs with hthere
      · refine ⟨_, _, rfl, (hnodup _ _ htracked).insert, List.mem_insert_self, le_max_right _ _, ?_⟩
        rintro _ _ h -
        cases h
        exact ⟨fun m hm => List.mem_insert_of_mem hm, le_max_left _ _⟩
      · refine ⟨_, _, rfl, List.nodup_singleton _, List.mem_singleton_self _, le_refl _, ?_⟩
        rintro _ _ h hlt
        cases h
        exact absurd hlt hthere

lemma Tidy.openSession (h : Tidy userId used now w) (huser : s.userId = userId)
    (hown : s.impersonator = none → ∃ n : ℕ, s.expiresAt = now + seconds n) :
    Tidy userId (s.id :: used) now (openSession w s now) := by
  have hmem : ∀ e ∈ (Sessions.openSession w s now).stored,
      e ∈ w.stored ∨ (e.1 = s ∧ e.2 ≤ min s.expiresAt s.idleExpiresAt) := fun e he => mem_store he
  have hbefore : ∀ ids ends, (w.store now s).tracked = some (ids, ends) → ids.Nodup := by
    simpa using h.tracked_nodup
  obtain ⟨ids, ends, htracked, hnodup, hid, hlong, hkeep⟩ : ∃ ids ends,
      ((w.store now s).track now s).tracked = some (ids, ends) ∧ _ := track_tracked hbefore
  refine ⟨store_ids_nodup h.ids_nodup, ?_, ?_, ?_, ?_, ?_⟩
  · intro e he
    rcases hmem e he with he | ⟨rfl, -⟩
    · exact List.mem_cons_of_mem _ (h.ids_used e he)
    · exact List.mem_cons_self
  · intro e he
    rcases hmem e he with he | ⟨rfl, -⟩
    · exact h.users e he
    · exact huser
  · intro e he
    rcases hmem e he with he | ⟨rfl, hle⟩
    · exact h.deadlines e he
    · exact hle
  · intro ids' ends' htracked'
    rw [Sessions.openSession, htracked] at htracked'
    cases htracked'
    exact hnodup
  · intro e he hnone hlt
    refine ⟨ids, ends, htracked, ?_⟩
    rcases hmem e he with he | ⟨rfl, hle⟩
    · obtain ⟨members, until_, hbefore, hin, huntil⟩ := h.tracked_own e he hnone hlt
      obtain ⟨hsub, hends⟩ := hkeep members until_ (by simpa using hbefore) (lt_of_lt_of_le hlt huntil)
      exact ⟨hsub hin, huntil.trans hends⟩
    · refine ⟨hid, (hle.trans (min_le_left _ _)).trans (le_trans ?_ hlong)⟩
      obtain ⟨n, hn⟩ := hown hnone
      rw [hn, add_seconds_sub_self, numSeconds_seconds]
      exact add_seconds_mono (le_max_right _ _)

lemma Tidy.revokeAll (h : Tidy userId used clock w) (ended : List SsoSession) :
    Tidy userId used clock (ended.foldl (fun w old => w.revoke old.id) w) := by
  induction ended generalizing w with
  | nil => exact h
  | cons old ended ih => exact ih h.revoke

lemma Tidy.makeRoom (h : Tidy userId used now w) (policy : OpeningPolicy) :
    Tidy userId used now (makeRoom w userId policy now) := by
  rw [Sessions.makeRoom]
  split_ifs
  · exact h
  · exact h.prune.revokeAll _

end Tidy

/-- What holds of a run. -/
def CapWorld.Tidy (userId : Uuid) (w : CapWorld) : Prop :=
  Sessions.Tidy userId w.used w.clock w.sessions

lemma capMachine_create {tenantId userId : Uuid} {w w' : CapWorld} {now : Instant} {id : Uuid}
    {policy : OpeningPolicy} {req : NewSession}
    (hstep : (capMachine tenantId userId).step w (.create now id policy req) = some w') :
    w.clock ≤ now ∧ id ∉ w.used ∧
      w' = ⟨now, id :: w.used, create w.sessions tenantId userId id req policy now⟩ := by
  simp only [capMachine, Option.ite_none_right_eq_some, Option.some.injEq] at hstep
  obtain ⟨⟨hclock, hfresh⟩, rfl⟩ := hstep
  exact ⟨hclock, hfresh, rfl⟩

/-- **What every run keeps.** -/
lemma tidy_of_run {tenantId userId : Uuid} {start : Instant} {calls : List CapCall} {w : CapWorld}
    (hrun : (capMachine tenantId userId).run (.initial start) calls = some w) : w.Tidy userId := by
  refine Machine.run_inv (C := fun _ _ => True) (I := CapWorld.Tidy userId) ?_
    (Machine.meets_of_forall (fun _ _ => trivial) _ _) hrun ?_
  · intro w call w' h _ hstep
    cases call with
    | create now id policy req =>
        obtain ⟨hclock, -, rfl⟩ := capMachine_create hstep
        exact ((h.later hclock).makeRoom policy).openSession
          (s := newSession tenantId userId id req policy now) rfl fun _ => ⟨_, rfl⟩
    | createImpersonated now id policy impersonator lifetime ip userAgent =>
        simp only [capMachine, Option.ite_none_right_eq_some, Option.some.injEq] at hstep
        obtain ⟨⟨hclock, -⟩, rfl⟩ := hstep
        refine (h.later hclock).openSession (s := newImpersonatedSession tenantId userId id impersonator
          lifetime ip userAgent policy now) rfl fun hnone => ?_
        cases hnone
  · refine ⟨List.nodup_nil, ?_, ?_, ?_, ?_, ?_⟩ <;> simp [CapWorld.initial]

/-! ## What a create ends -/

section Ended

variable {tenantId userId id : Uuid} {used : List Uuid} {now : Instant} {w : UserSessions}
  {s : SsoSession} {policy : OpeningPolicy} {req : NewSession}

lemma older_irrefl (a : SsoSession) : ¬ older a a := by
  rintro (h | ⟨-, h⟩)
  · exact lt_irrefl _ h
  · exact lt_irrefl _ h

lemma older_asymm (a b : SsoSession) (hab : older a b) : ¬ older b a := by
  rintro (h | ⟨heq, h⟩)
  · rcases hab with h' | ⟨heq, -⟩
    · exact lt_asymm h h'
    · exact lt_irrefl _ (heq ▸ h)
  · rcases hab with h' | ⟨-, h'⟩
    · exact lt_irrefl _ (heq ▸ h')
    · exact lt_asymm h h'

instance : Std.Total notYounger where
  total a b := by
    by_cases h : older b a
    · exact .inr (older_asymm b a h)
    · exact .inl h

lemma notYounger_iff {a b : SsoSession} : notYounger a b ↔
    a.createdAt ≤ b.createdAt ∧ (b.createdAt = a.createdAt → a.id ≤ b.id) := by
  simp only [notYounger, older, not_or, not_and, not_lt]

instance : IsTrans SsoSession notYounger where
  trans a b c hab hbc := by
    obtain ⟨hab, habId⟩ := notYounger_iff.mp hab
    obtain ⟨hbc, hbcId⟩ := notYounger_iff.mp hbc
    refine notYounger_iff.mpr ⟨hab.trans hbc, fun heq => ?_⟩
    have hb : b.createdAt = a.createdAt := le_antisymm (heq ▸ hbc) hab
    exact (habId hb).trans (hbcId (heq.trans hb.symm))

lemma load_id (h : w.load now id = some s) : s.id = id := by
  rw [UserSessions.load, Option.map_eq_some_iff] at h
  obtain ⟨e, hfind, rfl⟩ := h
  have hpos := List.find?_some hfind
  simp only [Bool.and_eq_true, beq_iff_eq] at hpos
  exact hpos.1

lemma ids_of_loaded (ids : List Uuid) : ((ids.filterMap (w.load now)).map SsoSession.id).Sublist ids := by
  induction ids with
  | nil => exact List.Sublist.refl _
  | cons id ids ih =>
      cases hload : w.load now id with
      | none =>
          rw [List.filterMap_cons_none hload]
          exact ih.cons id
      | some s =>
          rw [List.filterMap_cons_some hload, List.map_cons, load_id hload]
          exact ih.cons_cons id

lemma Tidy.found_ids_nodup (h : Tidy userId used now w) :
    ((foundSessions w userId now).map SsoSession.id).Nodup := by
  have hids : (w.trackedIds now).Nodup := by
    rw [UserSessions.trackedIds]
    split
    · rename_i ids ends htracked
      split_ifs
      · exact h.tracked_nodup _ _ htracked
      · exact List.nodup_nil
    · exact List.nodup_nil
  exact hids.sublist ((List.filter_sublist.map _).trans (ids_of_loaded _))

lemma Tidy.sorted (h : Tidy userId used now w) : (listLiveForUser w userId now).Pairwise older := by
  have hsorted : (listLiveForUser w userId now).Pairwise notYounger := List.pairwise_insertionSort _ _
  have hperm : (listLiveForUser w userId now).Perm (foundSessions w userId now) :=
    List.perm_insertionSort _ _
  have hids : ((listLiveForUser w userId now).map SsoSession.id).Nodup :=
    (hperm.map _).nodup_iff.mpr h.found_ids_nodup
  rw [List.Nodup, List.pairwise_map] at hids
  refine (hsorted.and hids).imp ?_
  rintro a b ⟨hab, hne⟩
  obtain ⟨hle, hid⟩ := notYounger_iff.mp hab
  rcases lt_or_eq_of_le hle with hlt | heq
  · exact .inl hlt
  · exact .inr ⟨heq, lt_of_le_of_ne (hid heq.symm) hne⟩

lemma Tidy.listed_nodup (h : Tidy userId used now w) : (listLiveForUser w userId now).Nodup := by
  refine h.sorted.imp ?_
  rintro a _ hab rfl
  exact older_irrefl a hab

lemma Tidy.mem_listed_own (h : Tidy userId used now w) :
    s ∈ (listLiveForUser w userId now).filter (fun s => s.impersonator.isNone) ↔ s ∈ ownLive w now := by
  rw [List.mem_filter, listLiveForUser, List.mem_insertionSort, h.mem_ownLive,
    Option.isNone_iff_eq_none]
  constructor
  · rintro ⟨hfound, hown⟩
    obtain ⟨-, ends, hmem, hlt⟩ := h.mem_foundSessions.mp hfound
    exact ⟨ends, hmem, hlt, hown⟩
  · rintro ⟨ends, hmem, hlt, hown⟩
    exact ⟨h.own_found hmem hlt hown, hown⟩

lemma Tidy.listed_own_perm (h : Tidy userId used now w) :
    ((listLiveForUser w userId now).filter fun s => s.impersonator.isNone).Perm (ownLive w now) := by
  have hlisted := h.listed_nodup
  have hown : (ownLive w now).Nodup := by
    have hids : ((w.stored.map Prod.fst).map SsoSession.id).Nodup := by
      rw [List.map_map]
      exact h.ids_nodup
    exact (hids.of_map _).filter _
  exact (List.perm_ext_iff_of_nodup (hlisted.filter _) hown).mpr fun s => h.mem_listed_own

lemma mem_revokeAll {ended : List SsoSession} :
    e ∈ (ended.foldl (fun w old => w.revoke old.id) w).stored ↔
      e ∈ w.stored ∧ ∀ old ∈ ended, e.1.id ≠ old.id := by
  induction ended generalizing w with
  | nil => simp
  | cons old ended ih =>
      rw [List.foldl_cons, ih]
      simp only [UserSessions.revoke, UserSessions.srem, List.mem_filter, bne_iff_ne, List.forall_mem_cons,
        and_assoc]

lemma mem_store_of_ne (hne : e.1.id ≠ s.id) :
    e ∈ (w.store now s).stored ↔ e ∈ w.stored := by
  simp only [UserSessions.store]
  split_ifs
  · rfl
  · simp only [List.mem_cons, List.mem_filter, bne_iff_ne]
    constructor
    · rintro (rfl | ⟨he, -⟩)
      · exact absurd rfl hne
      · exact he
    · intro he
      exact .inr ⟨he, hne⟩

lemma mem_create (hne : e.1.id ≠ id) (hmax : policy.maxConcurrent ≠ 0) :
    e ∈ (create w tenantId userId id req policy now).stored ↔
      e ∈ w.stored ∧ ∀ old ∈ excessSessions w userId policy now, e.1.id ≠ old.id := by
  rw [create, openSession, track_stored, mem_store_of_ne hne, makeRoom, if_neg hmax, mem_revokeAll]
  rfl

lemma Tidy.mem_excess (h : Tidy userId used now w) (hs : s ∈ excessSessions w userId policy now) :
    ∃ ends, (s, ends) ∈ w.stored ∧ now < ends := by
  have hlisted := List.mem_of_mem_take hs
  rw [listLiveForUser, List.mem_insertionSort] at hlisted
  exact (h.mem_foundSessions.mp hlisted).2

/-- **What `create` ends.**  Of the sessions that are there, those that are among the oldest it
counts. -/
lemma Tidy.gone_iff (h : Tidy userId used now w) (hfresh : id ∉ used) (hmax : policy.maxConcurrent ≠ 0)
    (hmem : (s, ends) ∈ w.stored) (hlt : now < ends) :
    (create w tenantId userId id req policy now).load now s.id = none ↔
      s ∈ excessSessions w userId policy now := by
  have hafter : Tidy userId (id :: used) now (create w tenantId userId id req policy now) :=
    (h.makeRoom policy).openSession (s := newSession tenantId userId id req policy now) rfl
      fun _ => ⟨_, rfl⟩
  have hused := h.ids_used _ hmem
  constructor
  · intro hgone
    by_contra hnot
    have hkept : ∀ old ∈ excessSessions w userId policy now, s.id ≠ old.id := by
      intro old hold heq
      obtain ⟨ends', hmem', -⟩ := h.mem_excess hold
      cases List.inj_on_of_nodup_map h.ids_nodup hmem hmem' heq
      exact hnot hold
    have hne : s.id ≠ id := fun heq => hfresh (heq ▸ hused)
    have hload := (load_eq_some hafter.ids_nodup).mpr
      ⟨ends, (mem_create hne hmax).mpr ⟨hmem, hkept⟩, rfl, hlt⟩
    rw [hgone] at hload
    cases hload
  · intro hin
    cases hload : (create w tenantId userId id req policy now).load now s.id with
    | none => rfl
    | some s' =>
        obtain ⟨ends', hmem', hid, -⟩ := (load_eq_some hafter.ids_nodup).mp hload
        have hne : s'.id ≠ id := fun heq => hfresh (heq ▸ hid ▸ hused)
        exact absurd hid (((mem_create hne hmax).mp hmem').2 s hin)

lemma Tidy.mem_endedOwn (h : Tidy userId used now w) (hfresh : id ∉ used)
    (hmax : policy.maxConcurrent ≠ 0) :
    s ∈ endedOwn w (create w tenantId userId id req policy now) now ↔
      s ∈ (excessSessions w userId policy now).filter fun s => s.impersonator.isNone := by
  rw [endedOwn, List.mem_filter, List.mem_filter, Option.isNone_iff_eq_none, Option.isNone_iff_eq_none,
    h.mem_ownLive]
  constructor
  · rintro ⟨⟨ends, hmem, hlt, hown⟩, hgone⟩
    exact ⟨(h.gone_iff hfresh hmax hmem hlt).mp hgone, hown⟩
  · rintro ⟨hin, hown⟩
    obtain ⟨ends, hmem, hlt⟩ := h.mem_excess hin
    exact ⟨⟨ends, hmem, hlt, hown⟩, (h.gone_iff hfresh hmax hmem hlt).mpr hin⟩

end Ended

/-! ## When the cap ends what it must -/

/-- The sessions of the user's own that `create` ends are as many as the cap demands, and the oldest. -/
def EndsOldestOwn (w w' : UserSessions) (cap : ℕ) (now : Instant) : Prop :=
  (endedOwn w w' now).length = (ownLive w now).length + 1 - cap ∧
    ∀ s ∈ endedOwn w w' now, ∀ s' ∈ ownLive w now, s' ∉ endedOwn w w' now → older s s'

/-- No session that an administrator opened as the user is ended. -/
def SparesImpersonated (w w' : UserSessions) (now : Instant) : Prop :=
  ∀ s, w.load now s.id = some s → s.impersonator.isSome = true → w'.load now s.id ≠ none

/-- The oldest of the user's own sessions that may stay has as many sessions of administrators before it
as are ended on top of what the cap demands. -/
def ImpersonatedMakeRoom (w : UserSessions) (userId : Uuid) (cap : ℕ) (now : Instant) : Prop :=
  ∀ s ∈ ownLive w now, (ownLive w now).countP (fun a => older a s) = (ownLive w now).length + 1 - cap →
    (ownLive w now).length + (impersonatedLive w userId now).length + 1 - cap ≤
      ((ownLive w now).length + 1 - cap) + (impersonatedLive w userId now).countP fun a => older a s

section Counted

variable {tenantId userId id : Uuid} {used : List Uuid} {now : Instant} {w : UserSessions}
  {policy : OpeningPolicy} {req : NewSession}

lemma Tidy.listed_countP (h : Tidy userId used now w) (p : SsoSession → Bool) :
    (listLiveForUser w userId now).countP p =
      (ownLive w now).countP p + (impersonatedLive w userId now).countP p := by
  rw [List.countP_eq_countP_filter_add _ p fun s => s.impersonator.isNone, h.listed_own_perm.countP_eq]
  simp only [impersonatedLive, Option.not_isNone]

lemma Tidy.listed_length (h : Tidy userId used now w) : (listLiveForUser w userId now).length =
    (ownLive w now).length + (impersonatedLive w userId now).length := by
  have := h.listed_countP fun _ => true
  simpa only [List.countP_true] using this

lemma Tidy.endedOwn_length (h : Tidy userId used now w) (hfresh : id ∉ used)
    (hmax : policy.maxConcurrent ≠ 0) :
    (endedOwn w (create w tenantId userId id req policy now) now).length =
      (excessSessions w userId policy now).countP fun s => s.impersonator.isNone := by
  have hlisted := h.listed_nodup
  have hown : (ownLive w now).Nodup := h.listed_own_perm.nodup_iff.mp (hlisted.filter _)
  have hperm : (endedOwn w (create w tenantId userId id req policy now) now).Perm
      ((excessSessions w userId policy now).filter fun s => s.impersonator.isNone) :=
    (List.perm_ext_iff_of_nodup (hown.filter _) ((hlisted.sublist (List.take_sublist _ _)).filter _)).mpr
      fun s => h.mem_endedOwn hfresh hmax
  rw [hperm.length_eq, List.countP_eq_length_filter]

lemma Tidy.ended_count (h : Tidy userId used now w) (hmax : policy.maxConcurrent ≠ 0) :
    ((excessSessions w userId policy now).countP fun s => s.impersonator.isNone) +
        ((excessSessions w userId policy now).countP fun s => s.impersonator.isSome) =
      (ownLive w now).length + (impersonatedLive w userId now).length + 1 - policy.maxConcurrent := by
  have hlength := h.listed_length
  have hsplit := List.length_eq_countP_add_countP (fun s : SsoSession => s.impersonator.isNone)
    (l := excessSessions w userId policy now)
  have hkind : (fun s : SsoSession => decide ¬ s.impersonator.isNone = true) =
      fun s => s.impersonator.isSome := by
    funext s
    cases s.impersonator <;> rfl
  rw [hkind] at hsplit
  rw [← hsplit, excessSessions, List.length_take]
  omega

lemma Tidy.le_ended (h : Tidy userId used now w) (hmax : policy.maxConcurrent ≠ 0) :
    (ownLive w now).length + 1 - policy.maxConcurrent ≤
      (excessSessions w userId policy now).countP fun s => s.impersonator.isNone := by
  have hcount := h.ended_count hmax
  have himpersonated : ((excessSessions w userId policy now).countP fun s => s.impersonator.isSome) ≤
      (impersonatedLive w userId now).length := by
    rw [impersonatedLive, ← List.countP_eq_length_filter]
    exact List.Sublist.countP_le (List.take_sublist _ _)
  omega

lemma Tidy.ended_older (h : Tidy userId used now w) (hfresh : id ∉ used)
    (hmax : policy.maxConcurrent ≠ 0) :
    ∀ s ∈ endedOwn w (create w tenantId userId id req policy now) now, ∀ s' ∈ ownLive w now,
      s' ∉ endedOwn w (create w tenantId userId id req policy now) now → older s s' := by
  intro s hs s' hs' hnot
  obtain ⟨hfirst, -⟩ := List.mem_filter.mp ((h.mem_endedOwn hfresh hmax).mp hs)
  obtain ⟨hlisted, hown⟩ := List.mem_filter.mp (h.mem_listed_own.mpr hs')
  have hsorted := h.sorted
  rw [← List.take_append_drop
    ((listLiveForUser w userId now).length + 1 - policy.maxConcurrent) (listLiveForUser w userId now)]
    at hsorted hlisted
  rcases List.mem_append.mp hlisted with hlisted | hlisted
  · exact absurd ((h.mem_endedOwn hfresh hmax).mpr (List.mem_filter.mpr ⟨hlisted, hown⟩)) hnot
  · exact (List.pairwise_append.mp hsorted).2.2 s hfirst s' hlisted

lemma Tidy.spares_iff (h : Tidy userId used now w) (hfresh : id ∉ used)
    (hmax : policy.maxConcurrent ≠ 0) :
    SparesImpersonated w (create w tenantId userId id req policy now) now ↔
      ((excessSessions w userId policy now).countP fun s => s.impersonator.isSome) = 0 := by
  rw [List.countP_eq_zero]
  constructor
  · intro hspares s hs himp
    obtain ⟨ends, hmem, hlt⟩ := h.mem_excess hs
    exact hspares s ((load_eq_some h.ids_nodup).mpr ⟨ends, hmem, rfl, hlt⟩) himp
      ((h.gone_iff hfresh hmax hmem hlt).mpr hs)
  · intro hnone s hload himp hgone
    obtain ⟨ends, hmem, -, hlt⟩ := (load_eq_some h.ids_nodup).mp hload
    exact hnone s ((h.gone_iff hfresh hmax hmem hlt).mp hgone) himp

end Counted

/-- **When the cap ends no more of the user's own sessions than it must.**  In every run of `create` and
`create_impersonated` calls for a user, and for every `create` under a cap that may follow, the user's
own sessions that it ends are exactly the oldest `own + 1 - cap` of them if and only if the sessions
that administrators opened as the user and that the cap counts are, so far as they do not fit under
it, older than the oldest own session that may stay.  It ends no other session besides if and only if
none of administrators is counted, or they fit under the cap with the user's own. -/
theorem cap_ends_oldest_own_iff (tenantId userId : Uuid) (start : Instant) (calls : List CapCall)
    (w w' : CapWorld) (now : Instant) (id : Uuid) (policy : OpeningPolicy) (req : NewSession)
    (hrun : (capMachine tenantId userId).run (.initial start) calls = some w)
    (hcap : 0 < policy.maxConcurrent)
    (hstep : (capMachine tenantId userId).step w (.create now id policy req) = some w') :
    (EndsOldestOwn w.sessions w'.sessions policy.maxConcurrent now ↔
        ImpersonatedMakeRoom w.sessions userId policy.maxConcurrent now) ∧
      (EndsOldestOwn w.sessions w'.sessions policy.maxConcurrent now ∧
          SparesImpersonated w.sessions w'.sessions now ↔
        (impersonatedLive w.sessions userId now).length = 0 ∨
          (ownLive w.sessions now).length + (impersonatedLive w.sessions userId now).length + 1 ≤
            policy.maxConcurrent) := by
  obtain ⟨hclock, hfresh, rfl⟩ := capMachine_create hstep
  have htidy := (tidy_of_run hrun).later hclock
  have hmax : policy.maxConcurrent ≠ 0 := by omega
  have hends : EndsOldestOwn w.sessions (create w.sessions tenantId userId id req policy now)
      policy.maxConcurrent now ↔
        ((excessSessions w.sessions userId policy now).countP fun s => s.impersonator.isNone) =
          (ownLive w.sessions now).length + 1 - policy.maxConcurrent := by
    rw [EndsOldestOwn, and_iff_left (htidy.ended_older hfresh hmax), htidy.endedOwn_length hfresh hmax]
  constructor
  · rw [hends, ImpersonatedMakeRoom]
    refine (Ranking.count_take_iff older_irrefl older_asymm htidy.sorted
      (fun s => s.impersonator.isNone) (htidy.le_ended hmax)).trans ?_
    simp only [htidy.mem_listed_own, htidy.listed_own_perm.countP_eq, htidy.listed_countP,
      htidy.listed_length]
    refine forall₂_congr fun s hs => forall_congr' fun hplace => ?_
    rw [hplace]
  · rw [hends, htidy.spares_iff hfresh hmax]
    have hcount := htidy.ended_count hmax
    have hle := htidy.le_ended hmax
    omega

def samplePolicy : OpeningPolicy := { idleTimeoutSecs := 1800, absoluteTimeoutSecs := 43200, maxConcurrent := 2 }

def sampleSignIn (now : Instant) (id : Uuid) : CapCall :=
  .create now id samplePolicy ⟨["pwd"], none, none, none, none⟩

def sampleImpersonation (now : Instant) (id : Uuid) : CapCall :=
  .createImpersonated now id samplePolicy ⟨9, 1, "root"⟩ (seconds 3600) none none

def sampleRun (calls : List CapCall) : Option CapWorld := (capMachine 1 7).run (.initial 0) calls

/-- An administrator's session that is older than the user's own makes room for the next. -/
theorem cap_ends_oldest_own_iff_impersonated_first : ∃ w w',
    sampleRun [sampleImpersonation 0 1, sampleSignIn (seconds 1) 2] = some w ∧
      (capMachine 1 7).step w (sampleSignIn (seconds 2) 3) = some w' ∧
      EndsOldestOwn w.sessions w'.sessions 2 (seconds 2) := by
  refine ⟨_, _, rfl, rfl, (cap_ends_oldest_own_iff 1 7 0
    [sampleImpersonation 0 1, sampleSignIn (seconds 1) 2] _ _ (seconds 2) 3 samplePolicy
    ⟨["pwd"], none, none, none, none⟩ rfl (by decide) rfl).1.mpr ?_⟩
  unfold ImpersonatedMakeRoom
  decide +kernel

/-- **A session is ended for an administrator's.**  The user has one session, the administrator opens
another as the user, and the user's next sign-in ends the first, though two are allowed. -/
theorem own_session_is_ended : ∃ w w',
    sampleRun [sampleSignIn 0 1, sampleImpersonation (seconds 1) 2] = some w ∧
      (capMachine 1 7).step w (sampleSignIn (seconds 2) 3) = some w' ∧
      (ownLive w.sessions (seconds 2)).length = 1 ∧
      (endedOwn w.sessions w'.sessions (seconds 2)).length = 1 ∧
      ¬ EndsOldestOwn w.sessions w'.sessions 2 (seconds 2) := by
  refine ⟨_, _, rfl, rfl, by decide +kernel, by decide +kernel, ?_⟩
  rintro ⟨hcount, -⟩
  revert hcount
  decide +kernel

end Ridm.Sessions
