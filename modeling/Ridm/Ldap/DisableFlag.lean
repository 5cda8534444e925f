import Mathlib.Data.List.Sort
import Ridm.Lib.Interleaving
import Ridm.Users.Model

/-!
# Whose disable it was

`run_sync` of `api/src/services/ldap.rs`, as far as it concerns the status of users: `sync_entry`
disables and enables the users of entries, `disable_missing` those whose entries are gone, both by
`set_status`.  That the directory is the reason is remembered on the link (`disabled_by_directory`),
in a transaction after the one that writes the status; `users::update` of an administrator writes the
status alone.

A sync is taken entry by entry and user by user, any of its steps may fail, and between two syncs
administrators change what they like.  What a sync may undo depends on the flags being truthful:
`stands_iff` says which flags those are, `disable_stands_iff` which steps keep them so, and `flag_misleads`
how they go wrong, by an administrator's disable under a flag that was left behind and by a failure
between the two writes.
-/

namespace Ridm.Ldap

open Users (UserStatus)

/-! ## Users and links -/

/-- A user, as far as a sync reads and writes one. -/
structure Account where
  status : UserStatus
  deleted : Bool
  deriving DecidableEq

/-- A row of `federated_identities`. -/
structure Link where
  idpId : Uuid
  subject : String
  userId : Uuid128
  disabledByDirectory : Bool

/-- Who changed a status. -/
inductive Writer
  | admin
  | sync (idpId : Uuid)
  deriving DecidableEq

/-- A tenant's users and links.  `disabledBy` records who made a user's latest change to disabled. -/
structure Tenant where
  users : Uuid128 → Option Account
  links : List Link
  disabledBy : Uuid128 → Option Writer

namespace Tenant

/-- The user, unless deleted. -/
def liveUser (t : Tenant) (u : Uuid128) : Option Account := (t.users u).filter (!·.deleted)

/-- `repos::ldap::link_state`. -/
def linkState (t : Tenant) (d : Uuid) (subject : String) : Option (Uuid128 × Bool) :=
  (t.links.find? fun l => l.idpId = d ∧ l.subject = subject).map fun l =>
    (l.userId, l.disabledByDirectory)

/-- `users::update` of the status; `none` when there is no such user. -/
def update (t : Tenant) (writer : Writer) (u : Uuid128) (status : UserStatus) : Option Tenant :=
  (t.liveUser u).map fun a =>
    { t with
      users := Function.update t.users u (some { a with status := status })
      disabledBy :=
        if status = .disabled ∧ a.status ≠ .disabled then Function.update t.disabledBy u (some writer)
        else t.disabledBy }

/-- `repos::ldap::set_disabled_by_directory`. -/
def setDisabledByDirectory (t : Tenant) (d : Uuid) (u : Uuid128) (disabled : Bool) : Tenant :=
  { t with links := t.links.map fun l =>
      if l.idpId = d ∧ l.userId = u then { l with disabledByDirectory := disabled } else l }

/-- `repos::federated_identities::delete`. -/
def unlink (t : Tenant) (u : Uuid128) (d : Uuid) : Tenant :=
  { t with links := t.links.filter fun l => !(l.userId = u ∧ l.idpId = d) }

/-- `repos::federated_identities::insert`: one user per identity, and one identity per provider per
user. -/
def link (t : Tenant) (u : Uuid128) (d : Uuid) (subject : String) : Option Tenant :=
  if t.links.any fun l => l.idpId = d ∧ (l.subject = subject ∨ l.userId = u) then none
  else some { t with links := t.links ++ [⟨d, subject, u, false⟩] }

/-- `repos::ldap::links_page`. -/
def linksPage (t : Tenant) (d : Uuid) (after : String) (limit : ℕ) : List Link :=
  ((t.links.filter fun l : Link => l.idpId = d ∧ after < l.subject).insertionSort
    fun l l' : Link => l.subject ≤ l'.subject).take limit

/-- `repos::users::active_among`. -/
def activeAmong (t : Tenant) (ids : List Uuid128) : List Uuid128 :=
  ids.dedup.filter fun u => (t.liveUser u).any (·.status = .active)

end Tenant

/-! ## A sync -/

/-- What a sync makes of an entry: its subject, when its uuid attribute is usable, and whether the
directory says it is disabled. -/
structure Entry where
  subject : Option String
  disabled : Bool

/-- How the two writes of `set_status` end. -/
inductive Draw
  | ok
  | refused
  | halfway
  deriving DecidableEq

/-- What `resolve_user` comes to for an entry nobody is linked to. -/
inductive Resolved
  | existing (u : Uuid128)
  | created (u : Uuid128)
  | refused
  | fails

/-- What is open at one step of a sync: whether everything else goes through (reading, the refresh of a
user, the group sync), what `resolve_user` comes to, and how `set_status` ends. -/
structure Surroundings where
  goesOn : Bool := true
  resolved : Resolved := .refused
  status : Draw := .ok

namespace Tenant

/-- `set_status`: disable (or enable again) a directory user, remembering that the directory is the
reason.  Whether the sync goes on. -/
def setStatus (t : Tenant) (d : Uuid) (u : Uuid128) (enabled : Bool) (draw : Draw) : Tenant × Bool :=
  match draw, t.update (.sync d) u (if enabled then .active else .disabled) with
  | .refused, _ | _, none => (t, false)
  | .halfway, some t' => (t', false)
  | .ok, some t' => (t'.setDisabledByDirectory d u !enabled, true)

/-- `resolve_user`, for an identity no user is linked to: a link whose user is gone goes first. -/
def resolveUser (t : Tenant) (d : Uuid) (subject : String) : Resolved → Tenant × Bool
  | .fails => (t, false)
  | resolved =>
      let t := (t.linkState d subject).elim t fun l => t.unlink l.1 d
      match resolved with
      | .existing u =>
          if (t.liveUser u).any (·.status = .active) then
            match t.link u d subject with
            | some t' => (t', true)
            | none => (t, false)
          else (t, true)
      | .created u =>
          if (t.users u).isNone then
            let created := { t with users := Function.update t.users u (some ⟨.active, false⟩) }
            match created.link u d subject with
            | some t' => (t', true)
            | none => (created, false)
          else (t, false)
      | .refused => (t, true)
      | .fails => (t, false)

/-- `sync_entry`: create, update, disable or enable the user of one entry.  Answers whether the sync goes
on. -/
def syncEntry (t : Tenant) (d : Uuid) (e : Entry) (x : Surroundings) : Tenant × Bool :=
  match e.subject with
  | none => (t, true)
  | some subject =>
      match t.linkState d subject, (t.linkState d subject).bind fun l => t.liveUser l.1 with
      | some (u, flagged), some a =>
          if e.disabled ∧ a.status = .active then t.setStatus d u false x.status
          else if ¬ e.disabled ∧ a.status = .disabled ∧ flagged then t.setStatus d u true x.status
          else (t, true)
      | _, _ => if e.disabled then (t, true) else t.resolveUser d subject x.resolved

end Tenant

/-- Where `run_sync` stands. -/
inductive Phase
  | reading (entries : List Entry)
  | missing (after : String)
  | disabling (after : String) (todo : List Uuid128)

/-- A sync under way. -/
structure Running where
  idpId : Uuid
  full : Bool
  read : ℕ
  seen : List String
  phase : Phase

/-- A tenant, the sync under way, and whether the last one went through. -/
structure World where
  tenant : Tenant
  running : Option Running
  wentThrough : Option Bool

/-- What happens: an administrator changes a status, a sync of a directory starts (full or not, with the
entries it is going to read), or goes on. -/
inductive Action
  | admin (u : Uuid128) (status : UserStatus)
  | start (d : Uuid) (full : Bool) (entries : List Entry)
  | step (x : Surroundings)

/-- The links of a page of `disable_missing`. -/
def missingPage : ℕ := 1000

/-- The next step of a sync: what becomes of the tenant, and the sync if it goes on.  `none`: it is over,
and went through or not. -/
def Running.next (r : Running) (t : Tenant) (x : Surroundings) : Tenant × (Bool ⊕ Running) :=
  if x.goesOn = false then (t, .inl false)
  else
    match r.phase with
    | .reading (e :: entries) =>
        match t.syncEntry r.idpId e x with
        | (t', false) => (t', .inl false)
        | (t', true) => (t', .inr
            { r with
              read := r.read + 1
              seen := r.seen ++ e.subject.toList
              phase := .reading entries })
    | .reading [] =>
        -- a full pass that reads no entries at all disables nobody
        if r.full ∧ 0 < r.read then (t, .inr { r with phase := .missing "" }) else (t, .inl true)
    | .missing after =>
        let page := t.linksPage r.idpId after missingPage
        match page.getLast? with
        | none => (t, .inl true)
        | some last =>
            let missing := (page.filter fun l => l.subject ∉ r.seen).map (·.userId)
            (t, .inr { r with phase := .disabling last.subject (t.activeAmong missing) })
    | .disabling after [] => (t, .inr { r with phase := .missing after })
    | .disabling after (u :: todo) =>
        match t.setStatus r.idpId u false x.status with
        | (t', false) => (t', .inl false)
        | (t', true) => (t', .inr { r with phase := .disabling after todo })

/-- Syncs and administrators, one after the other. -/
def syncMachine : Machine World Action where
  step w
    | .admin u status =>
        match w.running with
        | some _ => none
        | none => some { w with tenant := (w.tenant.update .admin u status).getD w.tenant }
    | .start d full entries =>
        match w.running with
        | some _ => none
        | none => some { w with running := some ⟨d, full, 0, [], .reading entries⟩ }
    | .step x =>
        match w.running with
        | none => none
        | some r =>
            match r.next w.tenant x with
            | (t, .inl done) => some ⟨t, none, some done⟩
            | (t, .inr r') => some ⟨t, some r', w.wentThrough⟩

/-! ## Links -/

/-- One user per identity, and one identity per provider per user: what the keys of the table say. -/
def Tenant.Distinct (t : Tenant) : Prop :=
  ∀ l ∈ t.links, ∀ l' ∈ t.links, l.idpId = l'.idpId →
    (l.subject = l'.subject ∨ l.userId = l'.userId) → l = l'

namespace Tenant

variable {t t' : Tenant} {d : Uuid} {u : Uuid128} {subject : String} {a : Account}

variable {l : Link} {after : String}

lemma linkState_of_mem (h : t.Distinct) (hl : l ∈ t.links) :
    t.linkState l.idpId l.subject = some (l.userId, l.disabledByDirectory) := by
  rw [linkState, Option.map_eq_some_iff]
  cases hfind : t.links.find? fun m => m.idpId = l.idpId ∧ m.subject = l.subject with
  | none =>
      have := List.find?_eq_none.mp hfind l hl
      simp at this
  | some m =>
      have hkey : m.idpId = l.idpId ∧ m.subject = l.subject := by simpa using List.find?_some hfind
      have hm := h m (List.mem_of_find?_eq_some hfind) l hl hkey.1 (Or.inl hkey.2)
      exact ⟨m, rfl, by rw [hm]⟩

lemma exists_of_linkState {flagged : Bool} (h : t.linkState d subject = some (u, flagged)) :
    ∃ l ∈ t.links, l.idpId = d ∧ l.subject = subject ∧ l.userId = u ∧
      l.disabledByDirectory = flagged := by
  rw [linkState, Option.map_eq_some_iff] at h
  obtain ⟨l, hfind, hl⟩ := h
  obtain ⟨rfl, rfl⟩ := Prod.mk.inj hl
  have hkey : l.idpId = d ∧ l.subject = subject := by simpa using List.find?_some hfind
  exact ⟨l, List.mem_of_find?_eq_some hfind, hkey.1, hkey.2, rfl, rfl⟩

lemma liveUser_eq_some : t.liveUser u = some a ↔ t.users u = some a ∧ a.deleted = false := by
  rw [liveUser, Option.filter_eq_some_iff]
  simp

lemma mem_setDisabledByDirectory {disabled : Bool}
    (h : l ∈ (t.setDisabledByDirectory d u disabled).links) :
    ∃ m ∈ t.links, m.idpId = l.idpId ∧ m.subject = l.subject ∧ m.userId = l.userId ∧
      l.disabledByDirectory = if m.idpId = d ∧ m.userId = u then disabled else m.disabledByDirectory := by
  obtain ⟨m, hm, rfl⟩ := List.mem_map.mp h
  refine ⟨m, hm, ?_⟩
  by_cases hkey : m.idpId = d ∧ m.userId = u
  · rw [if_pos hkey, if_pos hkey]
    exact ⟨rfl, rfl, rfl, rfl⟩
  · rw [if_neg hkey, if_neg hkey]
    exact ⟨rfl, rfl, rfl, rfl⟩

lemma Distinct.setDisabledByDirectory (h : t.Distinct) (d : Uuid) (u : Uuid128) (disabled : Bool) :
    (t.setDisabledByDirectory d u disabled).Distinct := by
  intro l hl l' hl' hidp hkey
  obtain ⟨m, hm, hmi, hms, hmu, hmf⟩ := mem_setDisabledByDirectory hl
  obtain ⟨m', hm', hmi', hms', hmu', hmf'⟩ := mem_setDisabledByDirectory hl'
  have hmm : m = m' := by
    refine h m hm m' hm' (by rw [hmi, hmi', hidp]) ?_
    rw [hms, hms', hmu, hmu']
    exact hkey
  subst hmm
  rw [← hmf'] at hmf
  cases l
  cases l'
  simp only [Link.mk.injEq]
  exact ⟨hidp, hms.symm.trans hms', hmu.symm.trans hmu', hmf⟩

/-! ## Writing a status -/

lemma update_eq_some {writer : Writer} {status : UserStatus} :
    t.update writer u status = some t' ↔ ∃ a, t.liveUser u = some a ∧ t' =
      { t with
        users := Function.update t.users u (some { a with status := status })
        disabledBy :=
          if status = .disabled ∧ a.status ≠ .disabled then
            Function.update t.disabledBy u (some writer)
          else t.disabledBy } := by
  rw [update, Option.map_eq_some_iff]
  exact exists_congr fun a => and_congr_right fun _ => eq_comm

lemma liveUser_update_self {writer : Writer} {status : UserStatus} (ha : t.liveUser u = some a)
    (h : t.update writer u status = some t') : t'.liveUser u = some { a with status := status } := by
  obtain ⟨b, hb, rfl⟩ := update_eq_some.mp h
  obtain rfl : a = b := Option.some.inj (ha.symm.trans hb)
  rw [liveUser_eq_some]
  exact ⟨Function.update_self .., (liveUser_eq_some.mp ha).2⟩

lemma liveUser_update_of_ne {writer : Writer} {status : UserStatus} {v : Uuid128} (hv : v ≠ u)
    (h : t.update writer u status = some t') : t'.liveUser v = t.liveUser v := by
  obtain ⟨b, -, rfl⟩ := update_eq_some.mp h
  rw [liveUser, liveUser]
  simp only [Function.update_of_ne hv]

lemma links_update {writer : Writer} {status : UserStatus} (h : t.update writer u status = some t') :
    t'.links = t.links := by
  obtain ⟨b, -, rfl⟩ := update_eq_some.mp h
  rfl

end Tenant

/-! ## Truthful flags -/

/-- A link's flag says of a disabled user whether a sync disabled them last: where it is up a sync did,
and where a sync of this directory did it is up. -/
def Tenant.Truthful (t : Tenant) : Prop :=
  ∀ l ∈ t.links, ∀ a, t.liveUser l.userId = some a → a.status = .disabled →
    (l.disabledByDirectory = true → ∃ d, t.disabledBy l.userId = some (.sync d)) ∧
      (t.disabledBy l.userId = some (.sync l.idpId) → l.disabledByDirectory = true)

/-- What a step leaves alone: the users there were and who disabled them, and the links of users who are
there.  New links are not flagged, and their users are active. -/
structure Tenant.Spares (t t' : Tenant) : Prop where
  users : ∀ u a, t.users u = some a → t'.users u = some a
  fresh : ∀ u a, t.users u = none → t'.users u = some a → a.status = .active
  disabledBy : t'.disabledBy = t.disabledBy
  links : ∀ l ∈ t'.links, l ∈ t.links ∨
    l.disabledByDirectory = false ∧ ∀ a, t'.liveUser l.userId = some a → a.status = .active
  kept : ∀ l ∈ t.links, (t.liveUser l.userId).isSome = true → l ∈ t'.links
  distinct : t.Distinct → t'.Distinct

namespace Tenant

variable {t t' : Tenant} {d : Uuid} {u : Uuid128} {subject : String} {a : Account}

lemma Spares.refl (t : Tenant) : t.Spares t :=
  ⟨fun _ _ h => h, fun _ _ h h' => absurd (h.symm.trans h') nofun, rfl, fun _ h => Or.inl h,
    fun _ h _ => h, fun h => h⟩

lemma Truthful.spares (h : t.Truthful) (hspares : t.Spares t') : t'.Truthful := by
  intro l hl a ha hstatus
  rcases hspares.links l hl with hold | ⟨-, hactive⟩
  · -- the user was there before, and is as before
    have hbefore : t.liveUser l.userId = some a := by
      obtain ⟨huser, hdeleted⟩ := liveUser_eq_some.mp ha
      cases hu : t.users l.userId with
      | none =>
          rw [hspares.fresh _ _ hu huser] at hstatus
          cases hstatus
      | some b =>
          rw [hspares.users _ _ hu] at huser
          obtain rfl := Option.some.inj huser
          exact liveUser_eq_some.mpr ⟨hu, hdeleted⟩
    rw [hspares.disabledBy]
    exact h l hold a hbefore hstatus
  · rw [hactive a ha] at hstatus
    cases hstatus

lemma spares_unlink (hgone : t.liveUser u = none) : t.Spares (t.unlink u d) := by
  refine ⟨fun _ _ h => h, fun _ _ h h' => absurd (h.symm.trans h') nofun, rfl, ?_, ?_, ?_⟩
  · intro l hl
    exact Or.inl (List.mem_filter.mp hl).1
  · intro l hl hlive
    refine List.mem_filter.mpr ⟨hl, ?_⟩
    simp only [Bool.not_eq_true', decide_eq_false_iff_not, not_and]
    intro hu
    rw [hu, hgone] at hlive
    cases hlive
  · intro h l hl l' hl'
    exact h l (List.mem_filter.mp hl).1 l' (List.mem_filter.mp hl').1

lemma spares_link (hactive : ∀ a, t.liveUser u = some a → a.status = .active)
    (h : t.link u d subject = some t') : t.Spares t' := by
  rw [link] at h
  split_ifs at h with hany
  cases h
  rw [List.any_eq_true, not_exists] at hany
  have hno : ∀ l ∈ t.links, l.idpId = d → ¬ (l.subject = subject ∨ l.userId = u) := by
    intro l hl hd hkey
    exact hany l ⟨hl, decide_eq_true ⟨hd, hkey⟩⟩
  refine ⟨fun _ _ h => h, fun _ _ h h' => absurd (h.symm.trans h') nofun, rfl, ?_, ?_, ?_⟩
  · intro l hl
    rcases List.mem_append.mp hl with hl | hl
    · exact Or.inl hl
    · rw [List.mem_singleton] at hl
      subst hl
      exact Or.inr ⟨rfl, hactive⟩
  · exact fun l hl _ => List.mem_append_left _ hl
  · intro hdistinct l hl l' hl' hidp hkey
    rcases List.mem_append.mp hl with hl | hl
    · rcases List.mem_append.mp hl' with hl' | hl'
      · exact hdistinct l hl l' hl' hidp hkey
      · rw [List.mem_singleton] at hl'
        subst hl'
        exact absurd hkey (hno l hl hidp)
    · rw [List.mem_singleton] at hl
      subst hl
      rcases List.mem_append.mp hl' with hl' | hl'
      · exact absurd (hkey.imp Eq.symm Eq.symm) (hno l' hl' hidp.symm)
      · exact (List.mem_singleton.mp hl').symm

lemma Spares.trans {t'' : Tenant} (h : t.Spares t') (h' : t'.Spares t'') : t.Spares t'' := by
  have hfresh : ∀ u a, t.users u = none → t''.users u = some a → a.status = .active := by
    intro u a hu hu''
    cases hu' : t'.users u with
    | none => exact h'.fresh u a hu' hu''
    | some b =>
        have hb := h.fresh u b hu hu'
        rw [h'.users u b hu'] at hu''
        cases hu''
        exact hb
  have hlive : ∀ {t t' : Tenant} {u}, t.Spares t' → (t.liveUser u).isSome = true →
      t'.liveUser u = t.liveUser u := by
    intro t t' u h hsome
    obtain ⟨a, ha⟩ := Option.isSome_iff_exists.mp hsome
    obtain ⟨huser, hdeleted⟩ := liveUser_eq_some.mp ha
    rw [ha, liveUser_eq_some]
    exact ⟨h.users u a huser, hdeleted⟩
  refine ⟨fun u a hu => h'.users u a (h.users u a hu), hfresh, h'.disabledBy.trans h.disabledBy, ?_, ?_,
    fun hd => h'.distinct (h.distinct hd)⟩
  · intro l hl
    rcases h'.links l hl with hl' | hnew
    · rcases h.links l hl' with hold | ⟨hflag, hactive⟩
      · exact Or.inl hold
      · refine Or.inr ⟨hflag, fun a ha => ?_⟩
        obtain ⟨huser, hdeleted⟩ := liveUser_eq_some.mp ha
        cases hu' : t'.users l.userId with
        | none => exact h'.fresh _ a hu' huser
        | some b =>
            rw [h'.users _ b hu'] at huser
            cases huser
            exact hactive _ (liveUser_eq_some.mpr ⟨hu', hdeleted⟩)
    · exact Or.inr hnew
  · intro l hl hsome
    refine h'.kept l (h.kept l hl hsome) ?_
    rw [hlive h hsome]
    exact hsome

lemma Spares.liveUser (h : t.Spares t') (ha : t.liveUser u = some a) : t'.liveUser u = some a := by
  obtain ⟨huser, hdeleted⟩ := liveUser_eq_some.mp ha
  exact liveUser_eq_some.mpr ⟨h.users u a huser, hdeleted⟩

lemma spares_create (hnew : t.users u = none) :
    t.Spares { t with users := Function.update t.users u (some ⟨.active, false⟩) } := by
  refine ⟨fun v a hv => ?_, fun v a hv hv' => ?_, rfl, fun l hl => Or.inl hl, fun l hl _ => hl,
    fun h => h⟩
  · have hvu : v ≠ u := by
      rintro rfl
      rw [hnew] at hv
      cases hv
    exact (Function.update_of_ne hvu ..).trans hv
  · change Function.update t.users u (some ⟨.active, false⟩) v = some a at hv'
    by_cases hvu : v = u
    · rw [hvu, Function.update_self] at hv'
      cases hv'
      rfl
    · rw [Function.update_of_ne hvu, hv] at hv'
      cases hv'

lemma spares_orElse {before : Tenant} (hspares : before.Spares t)
    (hactive : ∀ a, t.liveUser u = some a → a.status = .active) :
    before.Spares (match t.link u d subject with
      | some t' => (t', true)
      | none => (t, false)).1 := by
  cases hlink : t.link u d subject with
  | none => exact hspares
  | some t' => exact hspares.trans (spares_link hactive hlink)

/-- **What `resolve_user` leaves alone**, when the user an identity is linked to is gone. -/
lemma spares_resolveUser (hgone : ∀ l, t.linkState d subject = some l → t.liveUser l.1 = none)
    (resolved : Resolved) : t.Spares (t.resolveUser d subject resolved).1 := by
  have hunlink : t.Spares ((t.linkState d subject).elim t fun l => t.unlink l.1 d) := by
    cases hlink : t.linkState d subject with
    | none => exact Spares.refl t
    | some l => exact spares_unlink (hgone l hlink)
  cases resolved with
  | fails => exact Spares.refl t
  | refused => exact hunlink
  | existing u =>
      rw [resolveUser.eq_def]
      dsimp only
      generalize (t.linkState d subject).elim t (fun l => t.unlink l.1 d) = t₁ at hunlink ⊢
      split_ifs with hactive
      · refine spares_orElse hunlink fun a ha => ?_
        rw [ha] at hactive
        simpa using hactive
      · exact hunlink
  | created u =>
      rw [resolveUser.eq_def]
      dsimp only
      generalize (t.linkState d subject).elim t (fun l => t.unlink l.1 d) = t₁ at hunlink ⊢
      split_ifs with hnew
      · refine spares_orElse (hunlink.trans (spares_create (Option.isNone_iff_eq_none.mp hnew))) ?_
        intro a ha
        obtain ⟨huser, -⟩ := liveUser_eq_some.mp ha
        change Function.update t₁.users u (some ⟨.active, false⟩) u = some a at huser
        rw [Function.update_self] at huser
        cases huser
        rfl
      · exact hunlink

/-! ## The two writes -/

/-- **What `set_status` comes to**: nothing, the status alone, or both. -/
lemma setStatus_cases (t : Tenant) (d : Uuid) (u : Uuid128) (enabled : Bool) (draw : Draw) :
    (draw = .refused ∨ t.liveUser u = none) ∧ t.setStatus d u enabled draw = (t, false) ∨
    ∃ a t', t.liveUser u = some a ∧
      t.update (.sync d) u (if enabled then .active else .disabled) = some t' ∧
      (draw = .halfway ∧ t.setStatus d u enabled draw = (t', false) ∨
        draw = .ok ∧
          t.setStatus d u enabled draw = (t'.setDisabledByDirectory d u !enabled, true)) := by
  rw [setStatus.eq_def]
  cases hupdate : t.update (.sync d) u (if enabled then .active else .disabled) with
  | none =>
      rw [update, Option.map_eq_none_iff] at hupdate
      cases draw <;> exact Or.inl ⟨Or.inr hupdate, rfl⟩
  | some t' =>
      obtain ⟨a, ha, -⟩ := update_eq_some.mp hupdate
      cases draw with
      | refused => exact Or.inl ⟨Or.inl rfl, rfl⟩
      | halfway => exact Or.inr ⟨a, t', ha, rfl, Or.inl ⟨rfl, rfl⟩⟩
      | ok => exact Or.inr ⟨a, t', ha, rfl, Or.inr ⟨rfl, rfl⟩⟩

lemma mem_setDisabledByDirectory_of_ne {disabled : Bool} (hl : l.userId ≠ u)
    (h : l ∈ t.links) : l ∈ (t.setDisabledByDirectory d u disabled).links :=
  List.mem_map.mpr ⟨l, h, if_neg fun hkey => hl hkey.2⟩

lemma setStatus_others (t : Tenant) (d : Uuid) (enabled : Bool) (draw : Draw) {v : Uuid128}
    (hv : v ≠ u) : (t.setStatus d u enabled draw).1.liveUser v = t.liveUser v ∧
      ∀ l ∈ t.links, l.userId = v → l ∈ (t.setStatus d u enabled draw).1.links := by
  rcases setStatus_cases t d u enabled draw with ⟨-, h⟩ | ⟨a, t', ha, hupdate, ⟨-, h⟩ | ⟨-, h⟩⟩
  · rw [h]
    exact ⟨rfl, fun l hl _ => hl⟩
  · rw [h]
    refine ⟨liveUser_update_of_ne hv hupdate, fun l hl _ => ?_⟩
    rw [links_update hupdate]
    exact hl
  · rw [h]
    refine ⟨(liveUser_update_of_ne hv hupdate :), fun l hl hlv => ?_⟩
    rw [← links_update hupdate] at hl
    exact mem_setDisabledByDirectory_of_ne (hlv ▸ hv) hl

lemma Distinct.update {writer : Writer} {status : UserStatus} (h : t.Distinct)
    (hupdate : t.update writer u status = some t') : t'.Distinct := by
  rw [Distinct, links_update hupdate]
  exact h

lemma Distinct.setStatus (h : t.Distinct) (d : Uuid) (u : Uuid128) (enabled : Bool) (draw : Draw) :
    (t.setStatus d u enabled draw).1.Distinct := by
  rcases setStatus_cases t d u enabled draw with ⟨-, hs⟩ | ⟨a, t', -, hupdate, ⟨-, hs⟩ | ⟨-, hs⟩⟩
  · rw [hs]
    exact h
  · rw [hs]
    exact h.update hupdate
  · rw [hs]
    exact (h.update hupdate).setDisabledByDirectory d u _

/-- The flags of a user, of the links to one directory. -/
def Flagged (t : Tenant) (d : Uuid) (u : Uuid128) : Prop :=
  ∀ l ∈ t.links, l.idpId = d → l.userId = u → l.disabledByDirectory = true

instance (t : Tenant) (d : Uuid) (u : Uuid128) : Decidable (t.Flagged d u) :=
  inferInstanceAs (Decidable (∀ l ∈ t.links, _))

/-- No directory is said to have disabled a user. -/
def Unflagged (t : Tenant) (u : Uuid128) : Prop :=
  ∀ l ∈ t.links, l.userId = u → l.disabledByDirectory = false

instance (t : Tenant) (u : Uuid128) : Decidable (t.Unflagged u) :=
  inferInstanceAs (Decidable (∀ l ∈ t.links, _))

lemma disabledBy_update {writer : Writer} {status : UserStatus} (ha : t.liveUser u = some a)
    (hupdate : t.update writer u status = some t') :
    t'.disabledBy =
      if status = .disabled ∧ a.status ≠ .disabled then Function.update t.disabledBy u (some writer)
      else t.disabledBy := by
  obtain ⟨b, hb, rfl⟩ := update_eq_some.mp hupdate
  obtain rfl : a = b := Option.some.inj (ha.symm.trans hb)
  rfl

/-- **A disable and the flags.**  What one writer's disable of a user makes true. -/
lemma Truthful.disable {writer : Writer} (h : t.Truthful) (ha : t.liveUser u = some a)
    (hstatus : a.status ≠ .disabled) (hupdate : t.update writer u .disabled = some t') :
    t'.Truthful ↔ ∀ l ∈ t.links, l.userId = u →
      (l.disabledByDirectory = true → ∃ d, writer = .sync d) ∧
        (writer = .sync l.idpId → l.disabledByDirectory = true) := by
  have hby : t'.disabledBy = Function.update t.disabledBy u (some writer) := by
    rw [disabledBy_update ha hupdate, if_pos ⟨rfl, hstatus⟩]
  have hself := liveUser_update_self ha hupdate
  rw [Truthful, links_update hupdate, hby]
  constructor
  · intro h' l hl hlu
    have hl' := h' l hl _ (hlu ▸ hself) rfl
    rw [hlu, Function.update_self, Option.some.injEq] at hl'
    simpa using hl'
  · intro h' l hl b hb hbstatus
    by_cases hlu : l.userId = u
    · rw [hlu, Function.update_self, Option.some.injEq]
      simpa using h' l hl hlu
    · rw [Function.update_of_ne hlu]
      rw [liveUser_update_of_ne hlu hupdate] at hb
      exact h l hl b hb hbstatus

lemma Truthful.of_update {writer : Writer} {status : UserStatus} (h : t.Truthful)
    (hstatus : status ≠ .disabled) (hupdate : t.update writer u status = some t') : t'.Truthful := by
  obtain ⟨a, ha, -⟩ := update_eq_some.mp hupdate
  intro l hl b hb hbstatus
  rw [links_update hupdate] at hl
  rw [disabledBy_update ha hupdate, if_neg fun h => hstatus h.1]
  by_cases hlu : l.userId = u
  · rw [hlu, liveUser_update_self ha hupdate] at hb
    cases hb
    exact absurd hbstatus hstatus
  · rw [liveUser_update_of_ne hlu hupdate] at hb
    exact h l hl b hb hbstatus

/-- **An administrator's change**: it keeps the flags truthful, unless it disables a user with a flag that
is up. -/
lemma Truthful.admin {status : UserStatus} (h : t.Truthful)
    (hupdate : t.update .admin u status = some t') :
    t'.Truthful ↔ (status = .disabled → (t.liveUser u).any (·.status ≠ .disabled) = true →
      t.Unflagged u) := by
  obtain ⟨a, ha, -⟩ := update_eq_some.mp hupdate
  rw [ha, Option.any_some, decide_eq_true_iff]
  by_cases hstatus : status = .disabled
  · subst hstatus
    by_cases hbefore : a.status = .disabled
    · refine iff_of_true ?_ fun _ hne => absurd hbefore hne
      intro l hl b hb hbstatus
      rw [links_update hupdate] at hl
      rw [disabledBy_update ha hupdate, if_neg fun hkey => hkey.2 hbefore]
      by_cases hlu : l.userId = u
      · exact h l hl a (hlu ▸ ha) hbefore
      · rw [liveUser_update_of_ne hlu hupdate] at hb
        exact h l hl b hb hbstatus
    · rw [h.disable ha hbefore hupdate]
      constructor
      · intro h' _ _ l hl hlu
        rw [Bool.eq_false_iff]
        intro hflag
        obtain ⟨d, hd⟩ := (h' l hl hlu).1 hflag
        cases hd
      · intro hunflagged l hl hlu
        refine ⟨fun hflag => ?_, nofun⟩
        rw [hunflagged rfl hbefore l hl hlu] at hflag
        cases hflag
  · exact iff_of_true (h.of_update hstatus hupdate) fun heq => absurd heq hstatus

/-- **A sync's disable**, of an active user: it keeps the flags truthful, unless it stops halfway and the
flag was down. -/
lemma Truthful.setStatus_disable {draw : Draw} (h : t.Truthful) (ha : t.liveUser u = some a)
    (hactive : a.status = .active) :
    (t.setStatus d u false draw).1.Truthful ↔ (draw = .halfway → t.Flagged d u) := by
  have hne : a.status ≠ .disabled := by
    rw [hactive]
    exact nofun
  rcases setStatus_cases t d u false draw with ⟨hdraw, hs⟩ | ⟨b, t', hb, hupdate, ⟨rfl, hs⟩ | ⟨rfl, hs⟩⟩
  · rw [hs]
    refine iff_of_true h ?_
    rintro rfl
    rcases hdraw with hdraw | hnone
    · cases hdraw
    · rw [ha] at hnone
      cases hnone
  · rw [hs, h.disable ha hne hupdate]
    constructor
    · intro h' _ l hl hd hu
      exact (h' l hl hu).2 (by rw [hd])
    · intro hflagged l hl hu
      refine ⟨fun _ => ⟨d, rfl⟩, fun hd => ?_⟩
      obtain rfl := Writer.sync.inj hd
      exact hflagged rfl l hl rfl hu
  · refine iff_of_true ?_ nofun
    rw [hs]
    intro l hl b hb hbstatus
    obtain ⟨m, hm, hmi, -, hmu, hflag⟩ := mem_setDisabledByDirectory hl
    change t'.liveUser l.userId = some b at hb
    change (_ → ∃ d, t'.disabledBy l.userId = _) ∧ (t'.disabledBy l.userId = _ → _)
    rw [disabledBy_update ha hupdate, if_pos ⟨rfl, hne⟩]
    by_cases hlu : l.userId = u
    · rw [hlu, Function.update_self]
      refine ⟨fun _ => ⟨d, rfl⟩, fun hd => ?_⟩
      have hmd : m.idpId = d := hmi.trans (Writer.sync.inj (Option.some.inj hd)).symm
      rw [hflag, if_pos ⟨hmd, hmu.trans hlu⟩]
      rfl
    · rw [Function.update_of_ne hlu, hflag, if_neg fun hkey => hlu (hmu.symm.trans hkey.2), ← hmu, ← hmi]
      rw [liveUser_update_of_ne hlu hupdate, ← hmu] at hb
      rw [links_update hupdate] at hm
      exact h m hm b hb hbstatus

lemma Truthful.setStatus_enable {draw : Draw} (h : t.Truthful) :
    (t.setStatus d u true draw).1.Truthful := by
  have hne : UserStatus.active ≠ .disabled := nofun
  rcases setStatus_cases t d u true draw with ⟨-, hs⟩ | ⟨a, t', ha, hupdate, ⟨-, hs⟩ | ⟨-, hs⟩⟩
  · rw [hs]
    exact h
  · rw [hs]
    exact h.of_update hne hupdate
  · rw [hs]
    have h' := h.of_update hne hupdate
    intro l hl b hb hbstatus
    obtain ⟨m, hm, hmi, -, hmu, hflag⟩ := mem_setDisabledByDirectory hl
    change t'.liveUser l.userId = some b at hb
    change (_ → ∃ d, t'.disabledBy l.userId = _) ∧ (t'.disabledBy l.userId = _ → _)
    by_cases hlu : l.userId = u
    · rw [hlu, liveUser_update_self ha hupdate] at hb
      cases hb
      cases hbstatus
    · rw [hflag, if_neg fun hkey => hlu (hmu.symm.trans hkey.2), ← hmu, ← hmi]
      rw [← hmu] at hb
      exact h' m hm b hb hbstatus

/-- The user that an entry is to disable: the active one linked to it. -/
def disables (t : Tenant) (d : Uuid) : Entry → Option Uuid128
  | ⟨some subject, true⟩ =>
      ((t.linkState d subject).map (·.1)).filter fun u => (t.liveUser u).any (·.status = .active)
  | _ => none

/-- **What `sync_entry` does to users**: it disables the active user linked to a disabled entry, enables
the disabled one linked, with the flag up, to an enabled one, or spares everything there is. -/
lemma syncEntry_cases (t : Tenant) (d : Uuid) (e : Entry) (x : Surroundings) :
    (∃ subject u flagged a, e = ⟨some subject, true⟩ ∧ t.linkState d subject = some (u, flagged) ∧
      t.disables d e = some u ∧ t.liveUser u = some a ∧ a.status = .active ∧
      t.syncEntry d e x = t.setStatus d u false x.status) ∨
    t.disables d e = none ∧
      ((∃ subject u a, e = ⟨some subject, false⟩ ∧ t.linkState d subject = some (u, true) ∧
          t.liveUser u = some a ∧ a.status = .disabled ∧
          t.syncEntry d e x = t.setStatus d u true x.status) ∨
        t.Spares (t.syncEntry d e x).1) := by
  obtain ⟨_ | subject, disabled⟩ := e
  · exact Or.inr ⟨rfl, Or.inr (Spares.refl t)⟩
  rw [syncEntry.eq_def]
  dsimp only
  have hcreate : (∀ l, t.linkState d subject = some l → t.liveUser l.1 = none) →
      t.disables d ⟨some subject, disabled⟩ = none ∧
        t.Spares (if disabled then (t, true) else t.resolveUser d subject x.resolved).1 := by
    intro hgone
    cases disabled with
    | false => exact ⟨rfl, spares_resolveUser hgone _⟩
    | true =>
        refine ⟨?_, Spares.refl t⟩
        rw [disables, Option.filter_eq_none_iff]
        intro u hu hactive
        obtain ⟨l, hl, rfl⟩ := Option.map_eq_some_iff.mp hu
        rw [hgone l hl] at hactive
        cases hactive
  cases hlink : t.linkState d subject with
  | none =>
      obtain ⟨hnone, hspares⟩ := hcreate fun l hl => absurd (hlink.symm.trans hl) nofun
      exact Or.inr ⟨hnone, Or.inr hspares⟩
  | some l =>
      obtain ⟨u, flagged⟩ := l
      rw [Option.bind_some]
      cases hlive : t.liveUser u with
      | none =>
          obtain ⟨hnone, hspares⟩ := hcreate fun l hl => by
            obtain rfl := Option.some.inj (hlink.symm.trans hl)
            exact hlive
          exact Or.inr ⟨hnone, Or.inr hspares⟩
      | some a =>
          dsimp only
          have hdisables : t.disables d ⟨some subject, true⟩ = (some u).filter fun _ => a.status = .active := by
            simp [disables, hlink, hlive, Option.filter]
          split_ifs with hdisable henable
          · obtain ⟨rfl, hactive⟩ := hdisable
            refine Or.inl ⟨subject, u, flagged, a, rfl, hlink, ?_, hlive, hactive, rfl⟩
            rw [hdisables]
            simp [hactive]
          · obtain ⟨hdisabled, hstatus, rfl⟩ := henable
            rw [Bool.not_eq_true] at hdisabled
            subst hdisabled
            exact Or.inr ⟨rfl, Or.inl ⟨subject, u, a, rfl, hlink, hlive, hstatus, rfl⟩⟩
          · refine Or.inr ⟨?_, Or.inr (Spares.refl t)⟩
            cases disabled with
            | false => rfl
            | true =>
                rw [hdisables]
                simpa using hdisable

lemma Distinct.syncEntry (h : t.Distinct) (d : Uuid) (e : Entry) (x : Surroundings) :
    (t.syncEntry d e x).1.Distinct := by
  rcases t.syncEntry_cases d e x with ⟨subject, u, flagged, a, -, -, -, -, -, hs⟩ |
    ⟨-, ⟨subject, u, a, -, -, -, -, hs⟩ | hspares⟩
  · rw [hs]
    exact h.setStatus _ _ _ _
  · rw [hs]
    exact h.setStatus _ _ _ _
  · exact hspares.distinct h

lemma syncEntry_enabled {x : Surroundings} (hdistinct : t.Distinct) (hl : l ∈ t.links)
    (ha : t.liveUser l.userId = some a) (hstatus : a.status = .disabled) :
    t.syncEntry l.idpId ⟨some l.subject, false⟩ x =
      if l.disabledByDirectory then t.setStatus l.idpId l.userId true x.status else (t, true) := by
  rw [syncEntry.eq_def]
  dsimp only
  rw [linkState_of_mem hdistinct hl, Option.bind_some, ha]
  dsimp only
  rw [if_neg fun h => absurd h.1 nofun]
  simp [hstatus]

end Tenant

/-! ## One step of a sync -/

/-- The user the next step of a sync is to disable. -/
def Running.disables (r : Running) (t : Tenant) : Option Uuid128 :=
  match r.phase with
  | .reading (e :: _) => t.disables r.idpId e
  | .disabling _ (u :: _) => some u
  | _ => none

/-- The users a sync has found to be disabled are active still. -/
def Phase.Ready (t : Tenant) : Phase → Prop
  | .disabling _ todo => todo.Nodup ∧ ∀ u ∈ todo, ∃ a, t.liveUser u = some a ∧ a.status = .active
  | _ => True

namespace Running

variable {r r' : Running} {t t' : Tenant} {x : Surroundings} {u : Uuid128}

/-- A sync after its entry, or over. -/
def entryRead (r : Running) (e : Entry) (entries : List Entry) : Bool → Bool ⊕ Running
  | false => .inl false
  | true => .inr
      { r with
        read := r.read + 1
        seen := r.seen ++ e.subject.toList
        phase := .reading entries }

lemma next_stopped (h : x.goesOn = false) : r.next t x = (t, .inl false) := by
  rw [next.eq_def, if_pos h]

lemma next_entry {e : Entry} {entries : List Entry} (hgoes : x.goesOn = true)
    (hphase : r.phase = .reading (e :: entries)) :
    r.next t x =
      ((t.syncEntry r.idpId e x).1, r.entryRead e entries (t.syncEntry r.idpId e x).2) := by
  rw [next.eq_def, if_neg (ne_false_of_eq_true hgoes), hphase]
  dsimp only
  rcases t.syncEntry r.idpId e x with ⟨t', _ | _⟩ <;> rfl

lemma next_read (hgoes : x.goesOn = true) (hphase : r.phase = .reading []) :
    r.next t x =
      (t, if r.full ∧ 0 < r.read then .inr { r with phase := .missing "" } else .inl true) := by
  rw [next.eq_def, if_neg (ne_false_of_eq_true hgoes), hphase]
  dsimp only
  split_ifs <;> rfl

/-- A sync after a page of links: over, or with the users of the page that are to be disabled. -/
def pageRead (r : Running) (t : Tenant) (page : List Link) : Bool ⊕ Running :=
  match page.getLast? with
  | none => .inl true
  | some last => .inr
      { r with
        phase := .disabling last.subject
          (t.activeAmong ((page.filter fun l => l.subject ∉ r.seen).map (·.userId))) }

lemma next_missing (hgoes : x.goesOn = true) (hphase : r.phase = .missing after) :
    r.next t x = (t, r.pageRead t (t.linksPage r.idpId after missingPage)) := by
  rw [next.eq_def, if_neg (ne_false_of_eq_true hgoes), hphase, pageRead]
  dsimp only
  split <;> rfl

lemma next_disabled (hgoes : x.goesOn = true) (hphase : r.phase = .disabling after []) :
    r.next t x = (t, .inr { r with phase := .missing after }) := by
  rw [next.eq_def, if_neg (ne_false_of_eq_true hgoes), hphase]

lemma next_disabling {todo : List Uuid128} (hgoes : x.goesOn = true)
    (hphase : r.phase = .disabling after (u :: todo)) :
    r.next t x = ((t.setStatus r.idpId u false x.status).1,
        if (t.setStatus r.idpId u false x.status).2 then .inr { r with phase := .disabling after todo }
        else .inl false) := by
  rw [next.eq_def, if_neg (ne_false_of_eq_true hgoes), hphase]
  dsimp only
  rcases t.setStatus r.idpId u false x.status with ⟨t', _ | _⟩ <;> rfl

/-- **What a step of a sync does to users**: it disables one, enables one whose flag is up, or spares
everything there is. -/
lemma next_cases (r : Running) (t : Tenant) (x : Surroundings) :
    (∃ u, x.goesOn = true ∧ r.disables t = some u ∧
      (r.next t x).1 = (t.setStatus r.idpId u false x.status).1) ∨
    (x.goesOn = false ∨ r.disables t = none) ∧
      ((∃ l ∈ t.links, ∃ a, l.disabledByDirectory = true ∧ t.liveUser l.userId = some a ∧
          a.status = .disabled ∧
          (r.next t x).1 = (t.setStatus r.idpId l.userId true x.status).1) ∨
        t.Spares (r.next t x).1) := by
  cases hgoes : x.goesOn with
  | false =>
      rw [next_stopped hgoes]
      exact Or.inr ⟨Or.inl rfl, Or.inr (Tenant.Spares.refl t)⟩
  | true =>
      rw [disables.eq_def]
      cases hphase : r.phase with
      | reading entries =>
          cases entries with
          | nil =>
              rw [next_read hgoes hphase]
              exact Or.inr ⟨Or.inr rfl, Or.inr (Tenant.Spares.refl t)⟩
          | cons e entries =>
              rw [next_entry hgoes hphase]
              rcases t.syncEntry_cases r.idpId e x with
                ⟨subject, u, flagged, a, -, -, hdisables, -, -, hs⟩ |
                ⟨hnone, ⟨subject, u, a, -, hlink, ha, hstatus, hs⟩ | hspares⟩
              · exact Or.inl ⟨u, rfl, hdisables, by rw [hs]⟩
              · obtain ⟨l, hl, -, -, rfl, hflag⟩ := Tenant.exists_of_linkState hlink
                exact Or.inr ⟨Or.inr hnone, Or.inl ⟨l, hl, a, hflag, ha, hstatus, by rw [hs]⟩⟩
              · exact Or.inr ⟨Or.inr hnone, Or.inr hspares⟩
      | missing after =>
          rw [next_missing hgoes hphase]
          exact Or.inr ⟨Or.inr rfl, Or.inr (Tenant.Spares.refl t)⟩
      | disabling after todo =>
          cases todo with
          | nil =>
              rw [next_disabled hgoes hphase]
              exact Or.inr ⟨Or.inr rfl, Or.inr (Tenant.Spares.refl t)⟩
          | cons u todo =>
              rw [next_disabling hgoes hphase]
              exact Or.inl ⟨u, rfl, rfl, rfl⟩

lemma active_of_disables (hready : r.phase.Ready t) (h : r.disables t = some u) :
    ∃ a, t.liveUser u = some a ∧ a.status = .active := by
  obtain ⟨d, full, read, seen, phase⟩ := r
  cases phase with
  | reading entries =>
      rcases entries with _ | ⟨⟨_ | subject, _ | _⟩, entries⟩
      any_goals cases h
      obtain ⟨-, hactive⟩ := Option.filter_eq_some_iff.mp h
      obtain ⟨a, ha, hstatus⟩ := (Option.any_eq_true ..).mp hactive
      exact ⟨a, ha, of_decide_eq_true hstatus⟩
  | missing after => cases h
  | disabling after todo =>
      cases todo with
      | nil => cases h
      | cons v todo =>
          obtain rfl := Option.some.inj h
          exact hready.2 v List.mem_cons_self

/-- **Which steps of a sync keep the flags truthful.** -/
lemma next_truthful (hready : r.phase.Ready t) (h : t.Truthful) :
    (r.next t x).1.Truthful ↔
      (x.goesOn = true → x.status = .halfway → ∀ u, r.disables t = some u → t.Flagged r.idpId u) := by
  rcases r.next_cases t x with ⟨u, hgoes, hdisables, hnext⟩ | ⟨hno, hrest⟩
  · obtain ⟨a, ha, hactive⟩ := active_of_disables hready hdisables
    rw [hnext, h.setStatus_disable ha hactive]
    constructor
    · intro hflagged _ hstatus v hv
      obtain rfl := Option.some.inj (hdisables.symm.trans hv)
      exact hflagged hstatus
    · exact fun hall hstatus => hall hgoes hstatus u hdisables
  · refine iff_of_true ?_ ?_
    · rcases hrest with ⟨l, -, a, -, -, -, hnext⟩ | hspares
      · rw [hnext]
        exact h.setStatus_enable
      · exact h.spares hspares
    · intro hgoes _ v hv
      rcases hno with hno | hno
      · rw [hgoes] at hno
        cases hno
      · rw [hno] at hv
        cases hv

lemma next_distinct (h : t.Distinct) : (r.next t x).1.Distinct := by
  rcases r.next_cases t x with ⟨u, -, -, hnext⟩ | ⟨-, ⟨l, -, a, -, -, -, hnext⟩ | hspares⟩
  · rw [hnext]
    exact h.setStatus _ _ _ _
  · rw [hnext]
    exact h.setStatus _ _ _ _
  · exact hspares.distinct h

lemma goesOn_of_next {after : Bool ⊕ Running} (h : r.next t x = (t', after)) (hafter : after ≠ .inl false) :
    x.goesOn = true := by
  by_contra hstopped
  rw [next_stopped (Bool.eq_false_of_not_eq_true hstopped)] at h
  cases h
  exact hafter rfl

lemma next_ready (hready : r.phase.Ready t) (h : r.next t x = (t', .inr r')) : r'.phase.Ready t' := by
  have hgoes : x.goesOn = true := goesOn_of_next h nofun
  cases hphase : r.phase with
  | reading entries =>
      cases entries with
      | nil =>
          rw [next_read hgoes hphase, Prod.mk.injEq] at h
          obtain ⟨-, h⟩ := h
          split_ifs at h
          cases h
          trivial
      | cons e entries =>
          rw [next_entry hgoes hphase, Prod.mk.injEq] at h
          obtain ⟨-, h⟩ := h
          cases hok : (t.syncEntry r.idpId e x).2 <;> rw [hok] at h <;> cases h
          trivial
  | missing after =>
      rw [next_missing hgoes hphase, Prod.mk.injEq] at h
      obtain ⟨rfl, h⟩ := h
      rw [pageRead] at h
      split at h <;> cases h
      refine ⟨(List.nodup_dedup _).filter _, fun u hu => ?_⟩
      obtain ⟨a, ha, hactive⟩ := (Option.any_eq_true ..).mp (List.mem_filter.mp hu).2
      exact ⟨a, ha, of_decide_eq_true hactive⟩
  | disabling after todo =>
      rw [hphase] at hready
      cases todo with
      | nil =>
          rw [next_disabled hgoes hphase] at h
          cases h
          trivial
      | cons u todo =>
          rw [next_disabling hgoes hphase, Prod.mk.injEq] at h
          obtain ⟨rfl, h⟩ := h
          split_ifs at h
          cases h
          obtain ⟨hnot, hnodup⟩ := List.nodup_cons.mp hready.1
          refine ⟨hnodup, fun v hv => ?_⟩
          rw [(t.setStatus_others _ _ _ (ne_of_mem_of_not_mem hv hnot)).1]
          exact hready.2 v (List.mem_cons_of_mem _ hv)

end Running

/-! ## What is claimed, and when it holds -/

/-- A full sync of a directory, by the entries it reads and how its steps go. -/
def Tenant.fullSync (t : Tenant) (d : Uuid) (entries : List Entry) (xs : List Surroundings) :
    Option World :=
  syncMachine.run ⟨t, none, none⟩ (.start d true entries :: xs.map .step)

/-- **An administrator's disable stands, a sync's ends with its reason.**  Whatever sync is at work, it
sets a user to active only if a sync made the latest change to disabled.  And a user whose latest disable
was made by a sync is active after the next full sync that goes through and reads the user's entry,
enabled. -/
structure Tenant.Stands (t : Tenant) : Prop where
  stays : ∀ (r : Running) x u a b, t.liveUser u = some a → a.status ≠ .active →
    (r.next t x).1.liveUser u = some b → b.status = .active → ∃ d, t.disabledBy u = some (.sync d)
  returns : ∀ l ∈ t.links, ∀ a, t.liveUser l.userId = some a → a.status = .disabled →
    t.disabledBy l.userId = some (.sync l.idpId) →
      ∀ entries xs w, t.fullSync l.idpId entries xs = some w → w.running = none →
        w.wentThrough = some true → ⟨some l.subject, false⟩ ∈ entries →
        (∀ e ∈ entries, e.subject = some l.subject → e.disabled = false) →
          (w.tenant.liveUser l.userId).any (·.status = .active) = true

/-- The link the next step of a sync is to flag. -/
def World.disables (w : World) : Option (Uuid × Uuid128) :=
  w.running.bind fun r => (r.disables w.tenant).map fun u => (r.idpId, u)

/-- The condition: an administrator disables nobody whose link is flagged, and no sync disables a user
and stops before the flag, unless the flag was up. -/
def Harmless (w : World) : Action → Prop
  | .admin u status =>
      status = .disabled → (w.tenant.liveUser u).any (·.status ≠ .disabled) = true →
        w.tenant.Unflagged u
  | .start .. => True
  | .step x =>
      x.goesOn = true → x.status = .halfway →
        match w.disables with
        | none => True
        | some (d, u) => w.tenant.Flagged d u

instance (w : World) (a : Action) : Decidable (Harmless w a) :=
  match a with
  | .admin .. => inferInstanceAs (Decidable (_ → _ → _))
  | .start .. => .isTrue trivial
  | .step _ =>
      have : Decidable (match w.disables with
          | none => True
          | some (d, u) => w.tenant.Flagged d u) :=
        match w.disables with
        | none => .isTrue trivial
        | some (d, u) => inferInstanceAs (Decidable (w.tenant.Flagged d u))
      inferInstanceAs (Decidable (_ → _ → _))

/-- What every step keeps: the keys of the table, and that a sync disables active users. -/
structure World.Sound (w : World) : Prop where
  distinct : w.tenant.Distinct
  ready : ∀ r, w.running = some r → r.phase.Ready w.tenant

/-- What a step of a sync leads to. -/
def World.after (w : World) : Tenant × (Bool ⊕ Running) → World
  | (t, .inl done) => ⟨t, none, some done⟩
  | (t, .inr r) => ⟨t, some r, w.wentThrough⟩

lemma step_running {w : World} {r : Running} {x : Surroundings} (h : w.running = some r) :
    syncMachine.step w (.step x) = some (w.after (r.next w.tenant x)) := by
  simp only [syncMachine, h]
  rcases r.next w.tenant x with ⟨t, _ | r'⟩ <;> rfl

lemma after_tenant {w : World} {p : Tenant × (Bool ⊕ Running)} : (w.after p).tenant = p.1 := by
  rcases p with ⟨t, _ | r⟩ <;> rfl

lemma next_of_after {w : World} {p : Tenant × (Bool ⊕ Running)} {r : Running}
    (h : (w.after p).running = some r) : p = ((w.after p).tenant, .inr r) := by
  rcases p with ⟨t, _ | r'⟩ <;> cases h
  rfl

/-- **One step.** -/
lemma truthful_step {w w' : World} {a : Action} (hsound : w.Sound) (h : w.tenant.Truthful)
    (hstep : syncMachine.step w a = some w') :
    w'.Sound ∧ (w'.tenant.Truthful ↔ Harmless w a) := by
  cases a with
  | admin u status =>
      cases hrunning : w.running with
      | some r => simp [syncMachine, hrunning] at hstep
      | none =>
          simp only [syncMachine, hrunning, Option.some.injEq] at hstep
          subst hstep
          dsimp only [Harmless]
          cases hupdate : w.tenant.update .admin u status with
          | none =>
              refine ⟨⟨hsound.distinct, nofun⟩, iff_of_true h fun _ hany => ?_⟩
              rw [Tenant.update, Option.map_eq_none_iff] at hupdate
              rw [hupdate] at hany
              cases hany
          | some t' => exact ⟨⟨hsound.distinct.update hupdate, nofun⟩, h.admin hupdate⟩
  | start d full entries =>
      cases hrunning : w.running with
      | some r => simp [syncMachine, hrunning] at hstep
      | none =>
          simp only [syncMachine, hrunning, Option.some.injEq] at hstep
          subst hstep
          refine ⟨⟨hsound.distinct, fun r hr => ?_⟩, iff_of_true h trivial⟩
          cases hr
          trivial
  | step x =>
      cases hrunning : w.running with
      | none => simp [syncMachine, hrunning] at hstep
      | some r =>
          have hready := hsound.ready r hrunning
          have hdistinct : (r.next w.tenant x).1.Distinct := Running.next_distinct hsound.distinct
          rw [step_running hrunning, Option.some.injEq] at hstep
          have htenant : w'.tenant = (r.next w.tenant x).1 := by rw [← hstep, after_tenant]
          have hnext : ∀ r', w'.running = some r' → r.next w.tenant x = (w'.tenant, .inr r') := by
            rw [← hstep]
            exact fun r' => next_of_after
          refine ⟨⟨htenant ▸ hdistinct, fun r' hr' => Running.next_ready hready (hnext r' hr')⟩, ?_⟩
          rw [htenant, Running.next_truthful hready h, Harmless, World.disables, hrunning,
            Option.bind_some]
          cases r.disables w.tenant with
          | none => simp
          | some u => simp

/-! ## The next full sync -/

/-- The entries a sync has still to read. -/
def Phase.entries : Phase → List Entry
  | .reading entries => entries
  | _ => []

/-- The users a sync has found to be disabled. -/
def Phase.todo : Phase → List Uuid128
  | .disabling _ todo => todo
  | _ => []

namespace Tenant

variable {t : Tenant} {l : Link} {a : Account} {d : Uuid} {e : Entry} {x : Surroundings}

lemma mem_linksPage {limit : ℕ} (h : l ∈ t.linksPage d after limit) :
    l ∈ t.links ∧ l.idpId = d ∧ after < l.subject := by
  have hmem := (List.mem_insertionSort _).mp (List.mem_of_mem_take h)
  obtain ⟨hl, hkey⟩ := List.mem_filter.mp hmem
  exact ⟨hl, of_decide_eq_true hkey⟩

lemma syncEntry_others (hdistinct : t.Distinct) (hl : l ∈ t.links) (ha : t.liveUser l.userId = some a)
    (he : e.subject ≠ some l.subject) :
    (t.syncEntry l.idpId e x).1.liveUser l.userId = some a ∧ l ∈ (t.syncEntry l.idpId e x).1.links := by
  have hne : ∀ {subject u flagged}, e.subject = some subject →
      t.linkState l.idpId subject = some (u, flagged) → l.userId ≠ u := by
    intro subject u flagged hsubject hlink hu
    obtain ⟨m, hm, hmi, hms, hmu, -⟩ := exists_of_linkState hlink
    obtain rfl := hdistinct m hm l hl hmi (Or.inr (hmu.trans hu.symm))
    exact he (hsubject.trans (congrArg some hms.symm))
  rcases t.syncEntry_cases l.idpId e x with ⟨subject, u, flagged, b, hsubject, hlink, -, -, -, hs⟩ |
    ⟨-, ⟨subject, u, b, hsubject, hlink, -, -, hs⟩ | hspares⟩
  · obtain ⟨huser, hlinks⟩ := t.setStatus_others l.idpId false x.status (hne (by rw [hsubject]) hlink)
    rw [hs]
    exact ⟨huser.trans ha, hlinks l hl rfl⟩
  · obtain ⟨huser, hlinks⟩ := t.setStatus_others l.idpId true x.status (hne (by rw [hsubject]) hlink)
    rw [hs]
    exact ⟨huser.trans ha, hlinks l hl rfl⟩
  · exact ⟨hspares.liveUser ha, hspares.kept l hl (by rw [ha]; rfl)⟩

lemma syncEntry_active (hdistinct : t.Distinct) (hl : l ∈ t.links)
    (ha : t.liveUser l.userId = some a) (hstatus : a.status = .active) :
    t.syncEntry l.idpId ⟨some l.subject, false⟩ x = (t, true) := by
  rw [syncEntry.eq_def]
  dsimp only
  rw [linkState_of_mem hdistinct hl, Option.bind_some, ha]
  dsimp only
  rw [if_neg fun h => absurd h.1 nofun, if_neg]
  rintro ⟨-, hdisabled, -⟩
  rw [hstatus] at hdisabled
  cases hdisabled

end Tenant

/-- A full sync on its way to set the user of a link to active: the entry is still to come, or the user is
active and not among those to be disabled. -/
structure Returning (l : Link) (r : Running) (t : Tenant) : Prop where
  idp : r.idpId = l.idpId
  distinct : t.Distinct
  enabled : ∀ e ∈ r.phase.entries, e.subject = some l.subject → e.disabled = false
  todo : l.userId ∉ r.phase.todo
  status : ∃ flagged a, { l with disabledByDirectory := flagged } ∈ t.links ∧
    t.liveUser l.userId = some a ∧
      (flagged = true ∧ a.status = .disabled ∧ ⟨some l.subject, false⟩ ∈ r.phase.entries ∨
        a.status = .active ∧ l.subject ∈ r.seen)

namespace Returning

variable {l : Link} {r r' : Running} {t t' : Tenant} {x : Surroundings}

lemma active (h : Returning l r t) (hentries : r.phase.entries = []) :
    ∃ flagged a, { l with disabledByDirectory := flagged } ∈ t.links ∧
      t.liveUser l.userId = some a ∧ a.status = .active ∧ l.subject ∈ r.seen := by
  obtain ⟨flagged, a, hl, ha, ⟨-, -, hentry⟩ | ⟨hactive, hseen⟩⟩ := h.status
  · rw [hentries] at hentry
    cases hentry
  · exact ⟨flagged, a, hl, ha, hactive, hseen⟩

lemma entry {e : Entry} {entries : List Entry} (h : Returning l r t)
    (hphase : r.phase = .reading (e :: entries)) (hok : (t.syncEntry r.idpId e x).2 = true) :
    Returning l
      { r with
        read := r.read + 1
        seen := r.seen ++ e.subject.toList
        phase := .reading entries }
      (t.syncEntry r.idpId e x).1 := by
  have hdistinct := h.distinct.syncEntry r.idpId e x
  have henabled : ∀ e' ∈ entries, e'.subject = some l.subject → e'.disabled = false := by
    intro e' he'
    refine h.enabled e' ?_
    rw [hphase]
    exact List.mem_cons_of_mem _ he'
  obtain ⟨flagged, a, hl, ha, hstatus⟩ := h.status
  refine ⟨h.idp, hdistinct, henabled, List.not_mem_nil, ?_⟩
  dsimp only
  rw [h.idp] at hok ⊢
  by_cases he : e.subject = some l.subject
  · -- the entry of the link, which is enabled
    have hdisabled : e.disabled = false := by
      refine h.enabled e ?_ he
      rw [hphase]
      exact List.mem_cons_self
    obtain rfl : e = ⟨some l.subject, false⟩ := by
      cases e
      cases he
      cases hdisabled
      rfl
    have hseen : l.subject ∈ r.seen ++ [l.subject] := List.mem_append_right _ List.mem_cons_self
    rcases hstatus with ⟨rfl, hdisabled, -⟩ | ⟨hactive, -⟩
    · have hs : t.syncEntry l.idpId ⟨some l.subject, false⟩ x =
          t.setStatus l.idpId l.userId true x.status :=
        Tenant.syncEntry_enabled h.distinct hl ha hdisabled
      rw [hs] at hok ⊢
      rcases t.setStatus_cases l.idpId l.userId true x.status with
        ⟨-, hs⟩ | ⟨b, t', hb, hupdate, ⟨-, hs⟩ | ⟨-, hs⟩⟩
      · rw [hs] at hok
        cases hok
      · rw [hs] at hok
        cases hok
      · rw [hs]
        have hlive := Tenant.liveUser_update_self hb hupdate
        refine ⟨false, _, ?_, hlive, Or.inr ⟨rfl, hseen⟩⟩
        rw [← Tenant.links_update hupdate] at hl
        exact List.mem_map.mpr ⟨_, hl, if_pos ⟨rfl, rfl⟩⟩
    · have hs : t.syncEntry l.idpId ⟨some l.subject, false⟩ x = (t, true) :=
        Tenant.syncEntry_active (l := { l with disabledByDirectory := flagged }) h.distinct hl ha hactive
      rw [hs]
      exact ⟨flagged, a, hl, ha, Or.inr ⟨hactive, hseen⟩⟩
  · obtain ⟨hlive, hlink⟩ := Tenant.syncEntry_others (x := x) h.distinct hl ha he
    refine ⟨flagged, a, hlink, hlive, ?_⟩
    rcases hstatus with ⟨hflag, hdisabled, hentry⟩ | ⟨hactive, hseen⟩
    · refine Or.inl ⟨hflag, hdisabled, ?_⟩
      rw [hphase] at hentry
      rcases List.mem_cons.mp hentry with heq | hmem
      · rw [← heq] at he
        exact absurd rfl he
      · exact hmem
    · exact Or.inr ⟨hactive, List.mem_append_left _ hseen⟩

/-- **A step of the sync.** -/
lemma next (h : Returning l r t) (hnext : r.next t x = (t', .inr r')) : Returning l r' t' := by
  have hgoes : x.goesOn = true := Running.goesOn_of_next hnext nofun
  cases hphase : r.phase with
  | reading entries =>
      cases entries with
      | nil =>
          obtain ⟨flagged, a, hl, ha, hactive⟩ := h.active (by rw [hphase]; rfl)
          rw [Running.next_read hgoes hphase, Prod.mk.injEq] at hnext
          obtain ⟨rfl, hnext⟩ := hnext
          split_ifs at hnext
          cases hnext
          exact ⟨h.idp, h.distinct, nofun, List.not_mem_nil, flagged, a, hl, ha, Or.inr hactive⟩
      | cons e entries =>
          rw [Running.next_entry hgoes hphase, Prod.mk.injEq] at hnext
          obtain ⟨rfl, hnext⟩ := hnext
          cases hok : (t.syncEntry r.idpId e x).2 <;> rw [hok] at hnext <;> cases hnext
          exact h.entry hphase hok
  | missing after =>
      obtain ⟨flagged, a, hl, ha, hactive, hseen⟩ := h.active (by rw [hphase]; rfl)
      rw [Running.next_missing hgoes hphase, Prod.mk.injEq] at hnext
      obtain ⟨rfl, hnext⟩ := hnext
      rw [Running.pageRead] at hnext
      split at hnext <;> cases hnext
      refine ⟨h.idp, h.distinct, nofun, ?_, flagged, a, hl, ha, Or.inr ⟨hactive, hseen⟩⟩
      intro hmem
      obtain ⟨m, hm, hmu⟩ := List.mem_map.mp (List.mem_dedup.mp (List.mem_filter.mp hmem).1)
      obtain ⟨hpage, hunseen⟩ := List.mem_filter.mp hm
      obtain ⟨hml, hmd, -⟩ := Tenant.mem_linksPage hpage
      obtain rfl := h.distinct m hml _ hl (hmd.trans h.idp) (Or.inr hmu)
      exact of_decide_eq_true hunseen hseen
  | disabling after todo =>
      obtain ⟨flagged, a, hl, ha, hactive⟩ := h.active (by rw [hphase]; rfl)
      have htodo := h.todo
      rw [hphase] at htodo
      cases todo with
      | nil =>
          rw [Running.next_disabled hgoes hphase] at hnext
          cases hnext
          exact ⟨h.idp, h.distinct, nofun, List.not_mem_nil, flagged, a, hl, ha, Or.inr hactive⟩
      | cons u todo =>
          rw [Running.next_disabling hgoes hphase, Prod.mk.injEq] at hnext
          obtain ⟨rfl, hnext⟩ := hnext
          split_ifs at hnext
          cases hnext
          obtain ⟨hne, hnot⟩ := not_or.mp (mt List.mem_cons.mpr htodo)
          obtain ⟨hlive, hlinks⟩ := t.setStatus_others r.idpId false x.status hne
          exact ⟨h.idp, h.distinct.setStatus _ _ _ _, nofun, hnot, flagged, a, hlinks _ hl rfl,
            hlive.trans ha, Or.inr hactive⟩

lemma concludes (h : Returning l r t) (hnext : r.next t x = (t', .inl true)) :
    (t'.liveUser l.userId).any (·.status = .active) = true := by
  have hgoes : x.goesOn = true := Running.goesOn_of_next hnext nofun
  suffices hover : t' = t ∧ r.phase.entries = [] by
    obtain ⟨rfl, hentries⟩ := hover
    obtain ⟨-, a, -, ha, hactive, -⟩ := h.active hentries
    rw [ha]
    exact decide_eq_true hactive
  cases hphase : r.phase with
  | reading entries =>
      cases entries with
      | nil =>
          rw [Running.next_read hgoes hphase, Prod.mk.injEq] at hnext
          exact ⟨hnext.1.symm, rfl⟩
      | cons e entries =>
          rw [Running.next_entry hgoes hphase, Prod.mk.injEq] at hnext
          obtain ⟨-, hnext⟩ := hnext
          cases hok : (t.syncEntry r.idpId e x).2 <;> rw [hok] at hnext <;> cases hnext
  | missing after =>
      rw [Running.next_missing hgoes hphase, Prod.mk.injEq] at hnext
      exact ⟨hnext.1.symm, rfl⟩
  | disabling after todo =>
      cases todo with
      | nil =>
          rw [Running.next_disabled hgoes hphase] at hnext
          cases hnext
      | cons u todo =>
          rw [Running.next_disabling hgoes hphase, Prod.mk.injEq] at hnext
          obtain ⟨-, hnext⟩ := hnext
          split_ifs at hnext
          cases hnext

end Returning

/-- A sync is on its way, or over, and then the user is active if it went through. -/
def World.Returning (l : Link) (w : World) : Prop :=
  match w.running with
  | some r => Ldap.Returning l r w.tenant
  | none => w.wentThrough = some true → (w.tenant.liveUser l.userId).any (·.status = .active) = true

lemma World.Returning.step {w w' : World} {x : Surroundings} {r : Running}
    (hrunning : w.running = some r) (h : w.Returning l)
    (hstep : syncMachine.step w (.step x) = some w') : w'.Returning l := by
  rw [World.Returning, hrunning] at h
  rw [step_running hrunning, Option.some.injEq] at hstep
  subst hstep
  rcases hnext : r.next w.tenant x with ⟨t, done | r'⟩
  · intro hdone
    cases hdone
    exact h.concludes hnext
  · exact h.next hnext

/-- **A full sync.**  Where the flag of a disabled user's link is up, the sync that reads the entry,
enabled, and goes through leaves the user active. -/
lemma active_of_fullSync {t : Tenant} {w : World} {a : Account} {entries : List Entry}
    {xs : List Surroundings} (hdistinct : t.Distinct) (hl : l ∈ t.links)
    (hflag : l.disabledByDirectory = true) (ha : t.liveUser l.userId = some a)
    (hdisabled : a.status = .disabled) (hsync : t.fullSync l.idpId entries xs = some w)
    (hover : w.running = none) (hthrough : w.wentThrough = some true)
    (hentry : ⟨some l.subject, false⟩ ∈ entries)
    (henabled : ∀ e ∈ entries, e.subject = some l.subject → e.disabled = false) :
    (w.tenant.liveUser l.userId).any (·.status = .active) = true := by
  obtain ⟨v, hv, hrun⟩ := Machine.run_cons.mp hsync
  cases hv
  have hsteps : syncMachine.Meets (fun _ b => ∃ x, b = .step x)
      ⟨t, some ⟨l.idpId, true, 0, [], .reading entries⟩, none⟩ (xs.map .step) := by
    refine (Machine.meets_iff_forall hrun).mpr fun b hb => ?_
    obtain ⟨x, -, rfl⟩ := List.mem_map.mp hb
    exact ⟨x, rfl⟩
  have hflagged : { l with disabledByDirectory := true } = l := by rw [← hflag]
  have hreturning : w.Returning l := by
    refine Machine.run_inv (fun {v b v'} h hb hstep => ?_) hsteps hrun ?_
    · obtain ⟨x, rfl⟩ := hb
      cases hrunning : v.running with
      | none => simp [syncMachine, hrunning] at hstep
      | some r => exact h.step hrunning hstep
    · exact ⟨rfl, hdistinct, henabled, List.not_mem_nil, true, a, hflagged ▸ hl, ha,
        Or.inl ⟨rfl, hdisabled, hentry⟩⟩
  rw [World.Returning, hover] at hreturning
  exact hreturning hthrough

/-! ## There is a full sync that goes through -/

namespace Tenant

variable {t t' : Tenant}

def identities (t : Tenant) : List (Uuid × String) := t.links.map fun l => (l.idpId, l.subject)

/-- Where users are disabled, and nothing else is done to them. -/
structure Disables (t t' : Tenant) : Prop where
  identities : t'.identities = t.identities
  users : ∀ u a, t.liveUser u = some a →
    ∃ b, t'.liveUser u = some b ∧ (a.status = .disabled → b.status = .disabled)

lemma Disables.refl (t : Tenant) : t.Disables t := ⟨rfl, fun _ a ha => ⟨a, ha, id⟩⟩

lemma Disables.trans {t'' : Tenant} (h : t.Disables t') (h' : t'.Disables t'') : t.Disables t'' := by
  refine ⟨h'.identities.trans h.identities, fun u a ha => ?_⟩
  obtain ⟨b, hb, hab⟩ := h.users u a ha
  obtain ⟨c, hc, hbc⟩ := h'.users u b hb
  exact ⟨c, hc, hbc ∘ hab⟩

lemma setStatus_disables {d : Uuid} {u : Uuid128} (hlive : (t.liveUser u).isSome = true) :
    (t.setStatus d u false .ok).2 = true ∧ t.Disables (t.setStatus d u false .ok).1 := by
  rcases t.setStatus_cases d u false .ok with ⟨hno | hno, -⟩ | ⟨a, t', ha, hupdate, ⟨hno, -⟩ | ⟨-, hs⟩⟩
  · cases hno
  · rw [hno] at hlive
    cases hlive
  · cases hno
  · rw [hs]
    refine ⟨rfl, ?_, fun v b hb => ?_⟩
    · rw [identities, identities, setDisabledByDirectory, List.map_map, links_update hupdate]
      refine List.map_congr_left fun l _ => ?_
      rw [Function.comp_apply]
      split_ifs <;> rfl
    · by_cases hv : v = u
      · subst hv
        exact ⟨_, (liveUser_update_self ha hupdate :), fun _ => rfl⟩
      · exact ⟨b, (liveUser_update_of_ne hv hupdate :).trans hb, id⟩

/-- How many identities of a directory come after one. -/
def ahead (t : Tenant) (d : Uuid) (after : String) : ℕ :=
  t.identities.countP fun k => k.1 = d ∧ after < k.2

lemma ahead_lt (hl : l ∈ t.links) (hafter : after < l.subject) :
    t.ahead l.idpId l.subject < t.ahead l.idpId after := by
  have hless : t.ahead l.idpId l.subject =
      (t.identities.filter fun k => k.1 = l.idpId ∧ after < k.2).countP fun k =>
        k.1 = l.idpId ∧ l.subject < k.2 := by
    rw [List.countP_filter, ahead]
    refine List.countP_congr fun k _ => ?_
    simp only [Bool.and_eq_true, decide_eq_true_iff]
    exact ⟨fun h => ⟨h, h.1, String.lt_trans hafter h.2⟩, fun h => h.1⟩
  have hall : t.ahead l.idpId after =
      (t.identities.filter fun k => k.1 = l.idpId ∧ after < k.2).length :=
    List.countP_eq_length_filter
  rw [hless, hall, List.countP_lt_length_iff]
  refine ⟨(l.idpId, l.subject), List.mem_filter.mpr ⟨?_, ?_⟩, ?_⟩
  · exact List.mem_map.mpr ⟨l, hl, rfl⟩
  · exact decide_eq_true ⟨rfl, hafter⟩
  · simp

end Tenant

/-- Some steps of a sync lead from one world to another. -/
def World.Leads (w w' : World) : Prop := ∃ xs : List Surroundings, syncMachine.run w (xs.map .step) = some w'

lemma World.Leads.refl (w : World) : w.Leads w := ⟨[], rfl⟩

lemma World.Leads.step {w w' : World} {r : Running} (hrunning : w.running = some r)
    (h : (w.after (r.next w.tenant {})).Leads w') : w.Leads w' := by
  obtain ⟨xs, hxs⟩ := h
  exact ⟨{} :: xs, Machine.run_cons.mpr ⟨_, step_running hrunning, hxs⟩⟩

lemma leads_disabling (r : Running) (after : String) (o : Option Bool) : ∀ (todo : List Uuid128) (t : Tenant),
      (∀ v ∈ todo, (t.liveUser v).isSome = true) →
      ∃ t', t.Disables t' ∧ ∀ w', World.Leads ⟨t', some { r with phase := .missing after }, o⟩ w' →
        World.Leads ⟨t, some { r with phase := .disabling after todo }, o⟩ w'
  | [], t, _ => by
      refine ⟨t, Tenant.Disables.refl t, fun w' h => World.Leads.step rfl ?_⟩
      rw [Running.next_disabled rfl rfl]
      exact h
  | v :: todo, t, hlive => by
      obtain ⟨hok, hdisables⟩ := Tenant.setStatus_disables (d := r.idpId) (hlive v List.mem_cons_self)
      obtain ⟨t', hdisables', hleads⟩ := leads_disabling r after o todo (t.setStatus r.idpId v false .ok).1 (by
        intro u hu
        obtain ⟨a, ha⟩ := Option.isSome_iff_exists.mp (hlive u (List.mem_cons_of_mem _ hu))
        obtain ⟨b, hb, -⟩ := hdisables.users u a ha
        rw [hb]
        rfl)
      refine ⟨t', hdisables.trans hdisables', fun w' h => World.Leads.step rfl ?_⟩
      rw [Running.next_disabling rfl rfl]
      dsimp only
      rw [if_pos hok]
      exact hleads w' h

lemma leads_missing {r : Running} {o : Option Bool} : ∀ (n : ℕ) (t : Tenant) (after : String),
    t.ahead r.idpId after < n → ∃ t', t.Disables t' ∧
      World.Leads ⟨t, some { r with phase := .missing after }, o⟩ ⟨t', none, some true⟩ := by
  intro n
  induction n with
  | zero => exact fun t after h => absurd h (Nat.not_lt_zero _)
  | succ n ih =>
      intro t after hn
      cases hlast : (t.linksPage r.idpId after missingPage).getLast? with
      | none =>
          refine ⟨t, Tenant.Disables.refl t, World.Leads.step rfl ?_⟩
          rw [Running.next_missing rfl rfl, Running.pageRead]
          dsimp only
          rw [hlast]
          exact World.Leads.refl _
      | some last =>
          obtain ⟨hl, hd, hafter⟩ := Tenant.mem_linksPage (List.mem_of_getLast? hlast)
          let missing := ((t.linksPage r.idpId after missingPage).filter fun l => l.subject ∉ r.seen).map
            fun l : Link => l.userId
          obtain ⟨t₁, hdisables, hleads⟩ := leads_disabling r last.subject o (t.activeAmong missing) t (by
            intro v hv
            exact Option.isSome_of_any (List.mem_filter.mp hv).2)
          obtain ⟨t₂, hdisables', hleads'⟩ := ih t₁ last.subject (by
            have hlt := Tenant.ahead_lt hl hafter
            rw [Tenant.ahead, hdisables.identities]
            rw [hd] at hlt
            exact hlt.trans_le (Nat.lt_succ_iff.mp hn))
          refine ⟨t₂, hdisables.trans hdisables', World.Leads.step rfl ?_⟩
          rw [Running.next_missing rfl rfl, Running.pageRead]
          dsimp only
          rw [hlast]
          exact hleads _ hleads'

/-- **A full sync that leaves a user disabled**, whose flag is down, and goes through. -/
lemma exists_fullSync {t : Tenant} {a : Account} (hdistinct : t.Distinct) (hl : l ∈ t.links)
    (hflag : l.disabledByDirectory = false) (ha : t.liveUser l.userId = some a)
    (hdisabled : a.status = .disabled) :
    ∃ xs t' b, t.fullSync l.idpId [⟨some l.subject, false⟩] xs = some ⟨t', none, some true⟩ ∧
      t'.liveUser l.userId = some b ∧ b.status = .disabled := by
  let r : Running := ⟨l.idpId, true, 1, [l.subject], .reading []⟩
  obtain ⟨t', hdisables, hleads⟩ := leads_missing (r := r) (o := none) _ t "" (Nat.lt_succ_self _)
  obtain ⟨b, hb, hab⟩ := hdisables.users _ a ha
  have hreads : World.Leads ⟨t, some ⟨l.idpId, true, 0, [], .reading [⟨some l.subject, false⟩]⟩, none⟩
      ⟨t', none, some true⟩ := by
    refine World.Leads.step rfl ?_
    rw [Running.next_entry rfl rfl]
    dsimp only
    rw [Tenant.syncEntry_enabled hdistinct hl ha hdisabled, hflag]
    refine World.Leads.step rfl ?_
    rw [Running.next_read rfl rfl]
    exact hleads
  obtain ⟨xs, hxs⟩ := hreads
  exact ⟨xs, t', b, Machine.run_cons.mpr ⟨_, rfl, hxs⟩, hb, hab hdisabled⟩

lemma Tenant.liveUser_of_disable {t : Tenant} {d : Uuid} {u v : Uuid128} {draw : Draw} {b : Account}
    (hb : (t.setStatus d v false draw).1.liveUser u = some b) (hactive : b.status = .active) :
    t.liveUser u = some b := by
  by_cases huv : u = v
  · subst huv
    rcases t.setStatus_cases d u false draw with ⟨-, hs⟩ | ⟨a, t', ha, hupdate, ⟨-, hs⟩ | ⟨-, hs⟩⟩
    · rw [hs] at hb
      exact hb
    all_goals
      rw [hs] at hb
      obtain rfl := Option.some.inj ((liveUser_update_self ha hupdate).symm.trans hb)
      cases hactive
  · rw [(t.setStatus_others d false draw huv).1] at hb
    exact hb

lemma Tenant.liveUser_of_enable {t : Tenant} {d : Uuid} {u : Uuid128} {a : Account}
    (ha : t.liveUser u = some a) :
    (t.setStatus d u true .ok).1.liveUser u = some { a with status := .active } := by
  rcases t.setStatus_cases d u true .ok with ⟨hno | hno, -⟩ | ⟨b, t', -, hupdate, ⟨hno, -⟩ | ⟨-, hs⟩⟩
  · cases hno
  · rw [ha] at hno
    cases hno
  · cases hno
  · rw [hs]
    exact (liveUser_update_self ha hupdate :)

/-- **What it takes.**  A disable stands, and ends with its reason, exactly when the flags are
truthful. -/
theorem stands_iff {t : Tenant} (hdistinct : t.Distinct) : t.Stands ↔ t.Truthful := by
  constructor
  · rintro ⟨hstays, hreturns⟩ l hl a ha hstatus
    refine ⟨fun hflag => ?_, fun hby => ?_⟩
    · -- a sync that reads the entry, enabled, sets the user to active
      have hs := Tenant.syncEntry_enabled (x := {}) hdistinct hl ha hstatus
      rw [if_pos hflag] at hs
      refine hstays ⟨l.idpId, false, 0, [], .reading [⟨some l.subject, false⟩]⟩ {} l.userId a
        { a with status := .active } ha (by rw [hstatus]; exact nofun) ?_ rfl
      rw [Running.next_entry rfl rfl, hs]
      exact Tenant.liveUser_of_enable ha
    · by_contra hflag
      obtain ⟨xs, t', b, hsync, hb, hbstatus⟩ := exists_fullSync hdistinct hl
        (Bool.eq_false_of_not_eq_true hflag) ha hstatus
      have hactive := hreturns l hl a ha hstatus hby _ xs _ hsync rfl rfl List.mem_cons_self (by
        intro e he _
        obtain rfl := List.mem_singleton.mp he
        rfl)
      rw [hb, Option.any_some, hbstatus] at hactive
      cases hactive
  · intro h
    refine ⟨fun r x u a b ha hstatus hb hbstatus => ?_, ?_⟩
    · have hchanged : t.liveUser u ≠ some b := by
        intro hb'
        obtain rfl := Option.some.inj (ha.symm.trans hb')
        exact hstatus hbstatus
      rcases r.next_cases t x with ⟨v, -, -, hnext⟩ | ⟨-, ⟨l, hl, c, hflag, hc, hdisabled, hnext⟩ | hspares⟩
      · rw [hnext] at hb
        exact absurd (Tenant.liveUser_of_disable hb hbstatus) hchanged
      · by_cases hu : u = l.userId
        · subst hu
          exact (h l hl c hc hdisabled).1 hflag
        · rw [hnext, (t.setStatus_others r.idpId true x.status hu).1] at hb
          exact absurd hb hchanged
      · rw [hspares.liveUser ha] at hb
        exact absurd (ha.trans hb) hchanged
    · intro l hl a ha hstatus hby entries xs w hsync hover hthrough hentry henabled
      exact active_of_fullSync hdistinct hl ((h l hl a ha hstatus).2 hby) ha hstatus hsync hover hthrough
        hentry henabled

/-! ## Runs -/

/-- Before the first sync: no link is flagged, and no sync has disabled anyone. -/
structure World.Fresh (w : World) : Prop where
  running : w.running = none
  distinct : w.tenant.Distinct
  flags : ∀ l ∈ w.tenant.links, l.disabledByDirectory = false
  disabledBy : ∀ u d, w.tenant.disabledBy u ≠ some (.sync d)

lemma World.Fresh.sound {w : World} (h : w.Fresh) : w.Sound ∧ w.tenant.Truthful := by
  refine ⟨⟨h.distinct, fun r hr => absurd (h.running.symm.trans hr) nofun⟩, fun l hl a _ _ => ⟨?_, ?_⟩⟩
  · intro hflag
    rw [h.flags l hl] at hflag
    cases hflag
  · exact fun hby => absurd hby (h.disabledBy _ _)

/-- **An administrator's disable stands, and a sync's ends with its reason**, in every state of a run,
exactly when no administrator disables a user whose link is flagged and no disable of a sync stops between
its two writes. -/
theorem disable_stands_iff {w w' : World} {as : List Action} (hfresh : w.Fresh)
    (hrun : syncMachine.run w as = some w') :
    (∀ bs cs v, as = bs ++ cs → syncMachine.run w bs = some v → v.tenant.Stands) ↔
      syncMachine.Meets Harmless w as := by
  obtain ⟨hsound, htruthful⟩ := hfresh.sound
  refine Machine.always_iff_meets (I := World.Sound) (G := fun v => v.tenant.Stands)
    (A := fun _ => True) ?_ (fun _ _ => trivial) hrun hsound
    ((stands_iff hsound.distinct).mpr htruthful)
  intro v a v' _ hI hG hstep
  obtain ⟨hI', htruthful'⟩ := truthful_step hI ((stands_iff hI.distinct).mp hG) hstep
  exact ⟨hI', (stands_iff hI'.distinct).trans htruthful'⟩

def sampleWorld : World where
  tenant :=
    { users := fun u => if u = 7 then some ⟨.active, false⟩ else none
      links := [⟨1, "s", 7, false⟩]
      disabledBy := fun _ => none }
  running := none
  wentThrough := none

lemma sampleWorld_fresh : sampleWorld.Fresh := by
  refine ⟨rfl, ?_, by decide, nofun⟩
  intro l hl l' hl' _ _
  rw [List.mem_singleton.mp hl, List.mem_singleton.mp hl']

def readEntry (disabled : Bool) : List Action :=
  [.start 1 false [⟨some "s", disabled⟩], .step {}, .step {}]

/-- The directory disables the user and enables it again, and then an administrator disables it. -/
theorem disable_stands_in_turn :
    ∃ w, syncMachine.run sampleWorld (readEntry true ++ readEntry false ++ [.admin 7 .disabled]) =
        some w ∧ w.tenant.liveUser 7 = some ⟨.disabled, false⟩ ∧ w.tenant.Stands := by
  have hany : (syncMachine.run sampleWorld
      (readEntry true ++ readEntry false ++ [.admin 7 .disabled])).any
        (fun w => w.tenant.liveUser 7 = some ⟨.disabled, false⟩) = true := by decide +kernel
  obtain ⟨w, hrun, hdisabled⟩ := Machine.exists_run_of_any hany
  refine ⟨w, hrun, of_decide_eq_true hdisabled, ?_⟩
  exact (disable_stands_iff sampleWorld_fresh hrun).mpr (by decide +kernel) _ [] w
    (List.append_nil _).symm hrun

/-- **An administrator's disable is undone, and a return is not noticed.**  The flag of a sync's disable
outlives an administrator's enable, and the next sync takes the administrator's disable for its own.
And a disable that stopped before the flag is not undone by the next full sync. -/
theorem flag_misleads :
    (∃ w w', syncMachine.run sampleWorld (readEntry true ++
          [.admin 7 .active, .admin 7 .disabled, .start 1 false [⟨some "s", false⟩]]) = some w ∧
      w.tenant.liveUser 7 = some ⟨.disabled, false⟩ ∧ w.tenant.disabledBy 7 = some .admin ∧
      syncMachine.step w (.step {}) = some w' ∧ w'.tenant.liveUser 7 = some ⟨.active, false⟩) ∧
    ∃ w w', syncMachine.run sampleWorld
        [.start 1 false [⟨some "s", true⟩], .step { status := .halfway }] = some w ∧
      w.tenant.liveUser 7 = some ⟨.disabled, false⟩ ∧ w.tenant.disabledBy 7 = some (.sync 1) ∧
      w.tenant.fullSync 1 [⟨some "s", false⟩] (List.replicate 5 {}) = some w' ∧
      w'.running = none ∧ w'.wentThrough = some true ∧
      w'.tenant.liveUser 7 = some ⟨.disabled, false⟩ := by
  constructor
  · have hany : (syncMachine.run sampleWorld (readEntry true ++
        [.admin 7 .active, .admin 7 .disabled, .start 1 false [⟨some "s", false⟩]])).any
          (fun w => w.tenant.liveUser 7 = some ⟨.disabled, false⟩ ∧
            w.tenant.disabledBy 7 = some .admin ∧ (syncMachine.step w (.step {})).any
              (fun w' => w'.tenant.liveUser 7 = some ⟨.active, false⟩) = true) = true := by
      decide +kernel
    obtain ⟨w, hrun, hw⟩ := Machine.exists_run_of_any hany
    obtain ⟨hdisabled, hby, hstep⟩ := of_decide_eq_true hw
    obtain ⟨w', hw', hactive⟩ := (Option.any_eq_true ..).mp hstep
    exact ⟨w, w', hrun, hdisabled, hby, hw', of_decide_eq_true hactive⟩
  · have hany : (syncMachine.run sampleWorld
        [.start 1 false [⟨some "s", true⟩], .step { status := .halfway }]).any
          (fun w => w.tenant.liveUser 7 = some ⟨.disabled, false⟩ ∧
            w.tenant.disabledBy 7 = some (.sync 1) ∧
            (w.tenant.fullSync 1 [⟨some "s", false⟩] (List.replicate 5 {})).any
              (fun w' => w'.running = none ∧ w'.wentThrough = some true ∧
                w'.tenant.liveUser 7 = some ⟨.disabled, false⟩) = true) = true := by
      decide +kernel
    obtain ⟨w, hrun, hw⟩ := Machine.exists_run_of_any hany
    obtain ⟨hdisabled, hby, hsync⟩ := of_decide_eq_true hw
    obtain ⟨w', hw', hover⟩ := (Option.any_eq_true ..).mp hsync
    exact ⟨w, w', hrun, hdisabled, hby, hw', of_decide_eq_true hover⟩

end Ridm.Ldap
