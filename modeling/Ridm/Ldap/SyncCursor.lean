import Mathlib.Data.List.AList
import Mathlib.Order.Fin.Basic
import Ridm.Ldap.Model
import Ridm.Lib.Interleaving

/-!
# The cursor of an incremental sync

`run_sync` of `api/src/services/ldap.rs` and `record_sync` of `api/src/repos/ldap.rs`: an incremental
sync asks for the entries modified at or after a cursor, and the cursor becomes the largest modification
time the search handed out.

A search is no snapshot.  It reads one entry after the other while the directory goes on being written,
so an entry may change behind it, at a time the cursor then moves past (`change_missed`).  What every
later sync relies on is `Covered`, that the entries whose users are out of date match the filter;
`converges_iff` says that this is what it takes, and `incremental_sync_iff` which searches keep it.
-/

namespace Ridm.Ldap.Incremental

open Users (Platform User UserUpdate normalizePatch)

/-! ## Times -/

/-- `proto::generalized_time_key`: the 14 digits a generalized time begins with. -/
def generalizedTimeKey (value : String) : Option String :=
  let digits := value.toList.take 14
  if digits.length = 14 ∧ digits.all isAsciiDigit = true then some (String.ofList digits) else none

/-- How a directory writes the seconds of its clock, and what it makes of a filter
`(modifyTimestamp>=value)`: it writes generalized times, later ones with larger digits, and finds the
entries modified at the time in the filter or later. -/
structure TimeFormat (τ : Type*) [LinearOrder τ] where
  stamp : τ → String
  ge : String → τ → Bool
  digits : τ → String
  key_stamp : ∀ t, generalizedTimeKey (stamp t) = some (digits t)
  digits_lt : ∀ s t, digits s < digits t ↔ s < t
  ge_stamp : ∀ s t, ge (stamp s) t = true ↔ s ≤ t

/-! ## The directory and the users -/

/-- What a sync reads of an entry. -/
structure Data where
  dn : String
  profile : Profile
  disabled : Bool

/-- An entry, and when it was last modified. -/
structure Version (τ : Type*) where
  data : Data
  modified : τ

/-- A user linked to an entry, and the DN on the link. -/
structure Linked where
  user : User
  externalDn : Option String

/-- A sync under way: what it filters by, the cursor it has arrived at, the entries it has not come to,
and those it has.  `handedOut` records the modification times of the entries the search handed out. -/
structure Running (ε τ : Type*) where
  filter : Option String
  cursor : Option String
  unread : List ε
  examined : List ε
  handedOut : List τ

/-- A directory by the subjects of its entries, the users linked to them, and what is stored of the last
sync. -/
structure World (ε τ : Type*) where
  clock : τ
  entries : AList (fun _ : ε => Version τ)
  users : ε → Option Linked
  syncCursor : Option String
  running : Option (Running ε τ)

/-- What happens: time passes, an entry is written (or deleted), a sync starts, its search comes to an
entry, and it ends.  `resolved` is the user `resolve_user` finds or creates for an entry nobody is linked
to. -/
inductive Action (ε τ : Type*)
  | tick (t : τ)
  | change (e : ε) (data : Option Data)
  | start (full : Bool)
  | read (e : ε) (now : Instant) (resolved : Option User)
  | finish

/-! ## A sync -/

/-- `refresh`: the link's DN, no local password, the email and the username.  `none`: the update is
refused for what it is. -/
def refresh (P : Platform) (trustEmail : Bool) (now : Instant) (user : User) (d : Data) : Option Linked :=
  let user := { user with passwordHash := none }
  let patch := refreshPatch P trustEmail user d.profile
  if patch.isEmpty then some ⟨user, some d.dn⟩
  else (normalizePatch P patch).toOption.map fun p => ⟨p.apply user now, some d.dn⟩

/-- `sync_entry`, of the user linked to an entry.  Nobody is created for an account disabled in the
directory. -/
def syncEntry (P : Platform) (trustEmail : Bool) (now : Instant) (resolved : Option User) (d : Data) :
    Option Linked → Option (Option Linked)
  | some l => (refresh P trustEmail now l.user d).map some
  | none =>
      if d.disabled then some none
      else
        match resolved with
        | some user => (refresh P trustEmail now user d).map some
        | none => some none

section

variable {ε τ : Type*} [DecidableEq ε] [LinearOrder τ]

/-- The larger of the cursor and an entry's modification time, by their digits. -/
def advance (F : TimeFormat τ) (cursor : Option String) (modified : τ) : Option String :=
  match generalizedTimeKey (F.stamp modified) with
  | some key =>
      if (cursor.bind generalizedTimeKey).all (· < key) then some (F.stamp modified) else cursor
  | none => cursor

/-- The filter of the search finds an entry. -/
def found (F : TimeFormat τ) (filter : Option String) (modified : τ) : Bool :=
  filter.all (F.ge · modified)

/-- The search comes to an entry. -/
def Running.examine (r : Running ε τ) (e : ε) : Running ε τ :=
  { r with unread := r.unread.erase e, examined := e :: r.examined }

def Running.handOut (F : TimeFormat τ) (r : Running ε τ) (modified : τ) : Running ε τ :=
  { r with cursor := advance F r.cursor modified, handedOut := modified :: r.handedOut }

/-- Syncs of a directory that goes on being written.  A search comes to every entry there was when it
started, at some moment, and to the others as it happens. -/
def directorySync (P : Platform) (F : TimeFormat τ) (trustEmail : Bool) :
    Machine (World ε τ) (Action ε τ) where
  step w
    | .tick t => if w.clock ≤ t then some { w with clock := t } else none
    | .change e (some data) => some { w with entries := w.entries.insert e ⟨data, w.clock⟩ }
    | .change e none => some { w with entries := w.entries.erase e }
    | .start full =>
        match w.running with
        | some _ => none
        | none =>
            let filter := if full then none else w.syncCursor
            some { w with running := some ⟨filter, w.syncCursor, w.entries.keys, [], []⟩ }
    | .read e now resolved =>
        match w.running with
        | none => none
        | some r =>
            if e ∈ r.examined then none
            else
              match w.entries.lookup e with
              | none => some { w with running := some (r.examine e) }
              | some v =>
                  if found F r.filter v.modified then
                    (syncEntry P trustEmail now resolved v.data (w.users e)).map fun l =>
                      { w with
                        users := Function.update w.users e l
                        running := some ((r.examine e).handOut F v.modified) }
                  else some { w with running := some (r.examine e) }
    | .finish =>
        match w.running with
        | none => none
        | some r =>
            if r.unread = [] then
              some { w with syncCursor := r.cursor.or w.syncCursor, running := none }
            else none

/-! ## What is claimed, and when it holds -/

/-- The email, the username and the DN of a user are those of the entry, as far as it has them. -/
def Linked.UpToDate (P : Platform) (l : Linked) (d : Data) : Prop :=
  l.externalDn = some d.dn ∧ (d.profile.email P).all (l.user.email = some ·) = true ∧
    (d.profile.accountName P).all (l.user.username = ·) = true

instance (P : Platform) (l : Linked) (d : Data) : Decidable (l.UpToDate P d) :=
  inferInstanceAs (Decidable (_ ∧ _ ∧ _))

/-- The modification time of an entry whose user is out of date. -/
def World.stale (P : Platform) (w : World ε τ) (e : ε) : Option τ :=
  match w.entries.lookup e, w.users e with
  | some v, some l => if l.UpToDate P v.data then none else some v.modified
  | _, _ => none

/-- Every user is up to date with the entry. -/
def World.UpToDate (P : Platform) (w : World ε τ) : Prop :=
  ∀ e l v, w.users e = some l → w.entries.lookup e = some v → l.UpToDate P v.data

/-- A sync during which nothing changes. -/
def quietSync (full : Bool) (reads : List (ε × Instant × Option User)) : List (Action ε τ) :=
  .start full :: (reads.map fun x => .read x.1 x.2.1 x.2.2) ++ [.finish]

/-- A sync that runs while nothing changes brings every user up to date. -/
def World.Converges (P : Platform) (F : TimeFormat τ) (trustEmail : Bool) (w : World ε τ) : Prop :=
  ∀ full reads w', (directorySync P F trustEmail).run w (quietSync full reads) = some w' → w'.UpToDate P

/-- What that takes: the filter of the next sync finds the entries whose users are out of date. -/
def World.Covered (P : Platform) (F : TimeFormat τ) (w : World ε τ) : Prop :=
  ∀ e t, w.stale P e = some t → found F w.syncCursor t = true

/-- The condition, on the end of a search: no entry whose user is out of date by then, having changed
behind the search, was last modified before an entry that the search handed out. -/
def InOrder (P : Platform) (w : World ε τ) : Action ε τ → Prop
  | .finish =>
      match w.running with
      | none => True
      | some r => ∀ e ∈ w.entries.keys,
          (w.stale P e).all (fun t => r.handedOut.all (· ≤ t)) = true
  | _ => True

instance (P : Platform) (w : World ε τ) (a : Action ε τ) : Decidable (InOrder P w a) :=
  match a with
  | .finish =>
      match h : w.running with
      | none => .isTrue (by rw [InOrder, h]; trivial)
      | some r => decidable_of_iff (∀ e ∈ w.entries.keys,
          (w.stale P e).all (fun t => r.handedOut.all (· ≤ t)) = true) (by rw [InOrder, h])
  | .tick _ | .change .. | .start _ | .read .. => .isTrue trivial

/-! ## Bringing a user up to date -/

variable {P : Platform} {F : TimeFormat τ} {trustEmail : Bool} {now : Instant}

/-- **What `refresh` leaves** is up to date. -/
lemma refresh_upToDate (hlower : LowerLaws P.toLowercase) (user : User) (d : Data) :
    ∃ l, refresh P trustEmail now user d = some l ∧ l.UpToDate P d := by
  let before := { user with passwordHash := none }
  have hemail : ∀ x, d.profile.email P = some x →
      (refreshPatch P trustEmail before d.profile).email.getD before.email = some x :=
    fun x => email_refreshPatch trustEmail before d.profile
  have hname : ∀ x, d.profile.accountName P = some x →
      (refreshPatch P trustEmail before d.profile).username.getD before.username = x :=
    fun x => username_refreshPatch trustEmail before d.profile
  have hupToDate : ∀ u : User,
      u.email = (refreshPatch P trustEmail before d.profile).email.getD before.email →
      u.username = (refreshPatch P trustEmail before d.profile).username.getD before.username →
        Linked.UpToDate P ⟨u, some d.dn⟩ d := by
    intro u hu hu'
    refine ⟨rfl, ?_, ?_⟩
    · cases he : d.profile.email P with
      | none => rfl
      | some x => exact decide_eq_true (hu.trans (hemail x he))
    · cases hn : d.profile.accountName P with
      | none => rfl
      | some x => exact decide_eq_true (hu'.trans (hname x hn))
  rw [refresh]
  split_ifs with hempty
  · have hnothing := eq_of_beq hempty
    refine ⟨_, rfl, hupToDate _ ?_ ?_⟩ <;> rw [hnothing] <;> rfl
  · rw [normalizePatch_refreshPatch hlower]
    exact ⟨_, rfl, hupToDate _ rfl rfl⟩

/-- **What `sync_entry` leaves**: whoever is linked is up to date. -/
lemma syncEntry_upToDate (trustEmail : Bool) (now : Instant) (hlower : LowerLaws P.toLowercase)
    (resolved : Option User) (d : Data) (before : Option Linked) :
    ∃ after, syncEntry P trustEmail now resolved d before = some after ∧
      ∀ l, after = some l → l.UpToDate P d := by
  have hsome : ∀ user, ∃ after, (refresh P trustEmail now user d).map some = some after ∧
      ∀ l, after = some l → l.UpToDate P d := by
    intro user
    obtain ⟨l, hl, hupToDate⟩ := refresh_upToDate hlower user d
    refine ⟨some l, by rw [hl]; rfl, fun l' hl' => ?_⟩
    obtain rfl := Option.some.inj hl'
    exact hupToDate
  cases before with
  | some l => exact hsome l.user
  | none =>
      rw [syncEntry.eq_def]
      dsimp only
      split_ifs
      · exact ⟨none, rfl, fun l hl => by cases hl⟩
      · cases resolved with
        | none => exact ⟨none, rfl, fun l hl => by cases hl⟩
        | some user => exact hsome user

/-! ## The cursor -/

lemma advance_stamp (m t : τ) : advance F (some (F.stamp m)) t = some (F.stamp (max m t)) := by
  rw [advance, F.key_stamp, Option.bind_some, F.key_stamp]
  dsimp only
  rw [Option.all_some]
  by_cases hlt : m < t
  · rw [if_pos (decide_eq_true ((F.digits_lt m t).mpr hlt)), max_eq_right hlt.le]
  · rw [if_neg (by simpa using mt (F.digits_lt m t).mp hlt), max_eq_left (not_lt.mp hlt)]

lemma advance_none (t : τ) : advance F none t = some (F.stamp t) := by
  rw [advance, F.key_stamp]
  rfl

lemma found_stamp (m t : τ) : found F (some (F.stamp m)) t = true ↔ m ≤ t := F.ge_stamp m t

/-- Where the cursor of a search stands: it began with the stored one, and is at the largest time
since. -/
def Running.Reached (F : TimeFormat τ) (r : Running ε τ) (stored : Option String) : Prop :=
  r.cursor = none ∧ stored = none ∧ r.handedOut = [] ∨
    ∃ m, r.cursor = some (F.stamp m) ∧ (∀ s ∈ r.handedOut, s ≤ m) ∧
      (∀ s, stored = some (F.stamp s) → s ≤ m) ∧ (m ∈ r.handedOut ∨ stored = some (F.stamp m))

variable {resolved : Option User} {r : Running ε τ} {a : Action ε τ}

omit [DecidableEq ε] in
lemma Running.Reached.handedOut {stored : Option String} (h : r.Reached F stored)
    (t : τ) : (r.handOut F t).Reached F stored := by
  right
  rcases h with ⟨hcursor, hstored, hnone⟩ | ⟨m, hcursor, hall, hbefore, hfrom⟩
  · refine ⟨t, ?_, ?_, ?_, Or.inl List.mem_cons_self⟩
    · rw [Running.handOut, hcursor, advance_none]
    · rw [Running.handOut, hnone]
      simp
    · simp [hstored]
  · refine ⟨max m t, ?_, ?_, fun s hs => (hbefore s hs).trans (le_max_left _ _), ?_⟩
    · rw [Running.handOut, hcursor, advance_stamp]
    · intro s hs
      rcases List.mem_cons.mp hs with rfl | hs
      · exact le_max_right _ _
      · exact (hall s hs).trans (le_max_left _ _)
    · rcases le_total m t with hmt | htm
      · rw [max_eq_right hmt]
        exact Or.inl List.mem_cons_self
      · rw [max_eq_left htm]
        exact hfrom.imp_left (List.mem_cons_of_mem _)

/-- What keeps the times in order: no modification and no cursor is ahead of the clock. -/
structure World.Timely (F : TimeFormat τ) (w : World ε τ) : Prop where
  entries : ∀ e v, w.entries.lookup e = some v → v.modified ≤ w.clock
  stored : ∀ c, w.syncCursor = some c → ∃ t, t ≤ w.clock ∧ c = F.stamp t
  running : ∀ r, w.running = some r → r.Reached F w.syncCursor ∧ (∀ s ∈ r.handedOut, s ≤ w.clock) ∧
    (r.filter = none ∨ r.filter = w.syncCursor)

variable {w w' : World ε τ} {e : ε} {t : τ}

omit [LinearOrder τ] in
lemma stale_eq_some : w.stale P e = some t ↔
    ∃ v l, w.entries.lookup e = some v ∧ w.users e = some l ∧ ¬ l.UpToDate P v.data ∧ v.modified = t := by
  rw [World.stale]
  cases hv : w.entries.lookup e with
  | none => simp
  | some v =>
      cases hl : w.users e with
      | none => simp
      | some l => by_cases hupToDate : l.UpToDate P v.data <;> simp [hupToDate]

omit [LinearOrder τ] in
lemma upToDate_of_stale (h : ∀ e, w.stale P e = none) : w.UpToDate P := by
  intro e l v hl hv
  by_contra hnot
  have hstale : w.stale P e = some v.modified := stale_eq_some.mpr ⟨v, l, hv, hl, hnot, rfl⟩
  rw [h e] at hstale
  cases hstale

/-- **What a search does at an entry**: it passes one the filter does not find, and one it finds it hands
out, whose user is up to date then. -/
lemma read_cases (hlower : LowerLaws P.toLowercase)
    (hstep : (directorySync P F trustEmail).step w (.read e now resolved) = some w') :
    ∃ r, w.running = some r ∧ e ∉ r.examined ∧
      ((∀ v, w.entries.lookup e = some v → found F r.filter v.modified = false) ∧
          w' = { w with running := some (r.examine e) } ∨
        ∃ v l, w.entries.lookup e = some v ∧ (∀ l', l = some l' → l'.UpToDate P v.data) ∧
          w' = { w with
            users := Function.update w.users e l
            running := some ((r.examine e).handOut F v.modified) }) := by
  dsimp only [directorySync] at hstep
  cases hrunning : w.running with
  | none =>
      rw [hrunning] at hstep
      cases hstep
  | some r =>
      rw [hrunning] at hstep
      dsimp only at hstep
      split_ifs at hstep with hexamined
      refine ⟨r, rfl, hexamined, ?_⟩
      cases hv : w.entries.lookup e with
      | none =>
          rw [hv] at hstep
          cases hstep
          exact Or.inl ⟨nofun, rfl⟩
      | some v =>
          rw [hv] at hstep
          dsimp only at hstep
          split_ifs at hstep with hfound
          · obtain ⟨l, hl, hupToDate⟩ := syncEntry_upToDate trustEmail now hlower resolved v.data
              (w.users e)
            rw [hl] at hstep
            cases hstep
            exact Or.inr ⟨v, l, rfl, hupToDate, rfl⟩
          · cases hstep
            refine Or.inl ⟨fun v' hv' => ?_, rfl⟩
            obtain rfl := Option.some.inj hv'
            exact Bool.eq_false_of_not_eq_true hfound

lemma stale_read (hlower : LowerLaws P.toLowercase)
    (hstep : (directorySync P F trustEmail).step w (.read e now resolved) = some w') {e' : ε}
    (hstale : w'.stale P e' = some t) : w.stale P e' = some t := by
  obtain ⟨r, -, -, ⟨-, rfl⟩ | ⟨v, l, hv, hupToDate, rfl⟩⟩ := read_cases hlower hstep
  · exact hstale
  · obtain ⟨v', l', hv', hl', hnot, hmodified⟩ := stale_eq_some.mp hstale
    change Function.update w.users e l e' = some l' at hl'
    by_cases he : e' = e
    · subst he
      obtain rfl : v = v' := Option.some.inj (hv.symm.trans hv')
      rw [Function.update_self] at hl'
      exact absurd (hupToDate l' hl') hnot
    · rw [Function.update_of_ne he] at hl'
      exact stale_eq_some.mpr ⟨v', l', hv', hl', hnot, hmodified⟩

/-! ## A sync during which nothing changes -/

/-- The users that are out of date, in the middle of a search: it has still to come to their entries, and
finds them. -/
def World.Ahead (P : Platform) (F : TimeFormat τ) (w : World ε τ) : Prop :=
  ∃ r, w.running = some r ∧
    ∀ e t, w.stale P e = some t → e ∈ r.unread ∧ found F r.filter t = true

lemma World.Ahead.read (hlower : LowerLaws P.toLowercase)
    (h : w.Ahead P F) (hstep : (directorySync P F trustEmail).step w (.read e now resolved) = some w') :
    w'.Ahead P F := by
  obtain ⟨r, hrunning, hahead⟩ := h
  obtain ⟨r', hrunning', -, hcases⟩ := read_cases hlower hstep
  obtain rfl : r = r' := Option.some.inj (hrunning.symm.trans hrunning')
  -- the entry the search came to is not out of date any more
  have hnot : w'.stale P e = none := by
    by_contra hsome
    obtain ⟨t, ht⟩ := Option.ne_none_iff_exists'.mp hsome
    have hbefore := stale_read hlower hstep ht
    obtain ⟨v, l, hv, hl, hold, rfl⟩ := stale_eq_some.mp hbefore
    rcases hcases with ⟨hpassed, rfl⟩ | ⟨v', l', hv', hupToDate, rfl⟩
    · have hfound := (hahead e _ hbefore).2
      rw [hpassed v hv] at hfound
      cases hfound
    · obtain rfl : v = v' := Option.some.inj (hv.symm.trans hv')
      obtain ⟨v'', l'', hv'', hl'', hnew, -⟩ := stale_eq_some.mp ht
      obtain rfl : v = v'' := Option.some.inj (hv.symm.trans hv'')
      change Function.update w.users e l' e = some l'' at hl''
      rw [Function.update_self] at hl''
      exact hnew (hupToDate l'' hl'')
  have hrest : ∀ e' t, w'.stale P e' = some t → e' ∈ r.unread.erase e ∧ found F r.filter t = true := by
    intro e' t ht
    obtain ⟨hmem, hfound⟩ := hahead e' t (stale_read hlower hstep ht)
    refine ⟨(List.mem_erase_of_ne ?_).mpr hmem, hfound⟩
    rintro rfl
    rw [hnot] at ht
    cases ht
  rcases hcases with ⟨-, rfl⟩ | ⟨v, l, -, -, rfl⟩
  · exact ⟨_, rfl, hrest⟩
  · exact ⟨_, rfl, hrest⟩

lemma World.Ahead.reads (hlower : LowerLaws P.toLowercase) :
    ∀ (reads : List (ε × Instant × Option User)) {w w' : World ε τ}, w.Ahead P F →
      (directorySync P F trustEmail).run w (reads.map fun x => .read x.1 x.2.1 x.2.2) = some w' →
        w'.Ahead P F
  | [], _, _, h, hrun => by
      cases hrun
      exact h
  | _ :: reads, _, _, h, hrun => by
      obtain ⟨v, hv, hrun⟩ := Machine.run_cons.mp hrun
      exact World.Ahead.reads hlower reads (h.read hlower hv) hrun

/-- **What is covered is caught up with.** -/
lemma World.Covered.converges (hlower : LowerLaws P.toLowercase) (h : w.Covered P F) :
    w.Converges P F trustEmail := by
  intro full reads w' hrun
  obtain ⟨v, hstart, hrun⟩ := Machine.run_cons.mp hrun
  obtain ⟨v', hreads, hfinish⟩ := Machine.run_append.mp hrun
  have hahead : v.Ahead P F := by
    dsimp only [directorySync] at hstart
    split at hstart
    · cases hstart
    · cases hstart
      refine ⟨_, rfl, fun e t ht => ⟨?_, ?_⟩⟩
      · obtain ⟨u, -, hu, -⟩ := stale_eq_some.mp ht
        have hmem : e ∈ w.entries := AList.lookup_isSome.mp (by rw [hu]; rfl)
        exact hmem
      · dsimp only
        split_ifs
        · rfl
        · exact h e t ht
  obtain ⟨r, hrunning, hleft⟩ := World.Ahead.reads hlower reads hahead hreads
  obtain ⟨v'', hstep, hlast⟩ := Machine.run_cons.mp hfinish
  cases hlast
  simp only [directorySync, hrunning] at hstep
  split_ifs at hstep with hunread
  cases hstep
  refine upToDate_of_stale fun e => ?_
  by_contra hsome
  obtain ⟨t, ht⟩ := Option.ne_none_iff_exists'.mp hsome
  have hmem := (hleft e t ht).1
  rw [hunread] at hmem
  cases hmem

lemma exists_read (hlower : LowerLaws P.toLowercase) (hrunning : w.running = some r)
    (he : e ∉ r.examined) :
    ∃ w' r', (directorySync P F trustEmail).step w (.read e now none) = some w' ∧
      w'.running = some r' ∧ r'.unread = r.unread.erase e ∧ r'.examined = e :: r.examined ∧
      r'.filter = r.filter ∧ w'.entries = w.entries ∧
      ∀ e' v, w.entries.lookup e' = some v → found F r.filter v.modified = false →
        w'.users e' = w.users e' := by
  simp only [directorySync, hrunning, if_neg he]
  cases hv : w.entries.lookup e with
  | none => exact ⟨_, r.examine e, rfl, rfl, rfl, rfl, rfl, rfl, fun _ _ _ _ => rfl⟩
  | some v =>
      dsimp only
      cases hfound : found F r.filter v.modified with
      | false => exact ⟨_, r.examine e, rfl, rfl, rfl, rfl, rfl, rfl, fun _ _ _ _ => rfl⟩
      | true =>
          obtain ⟨l, hl, -⟩ := syncEntry_upToDate trustEmail now hlower none v.data (w.users e)
          rw [hl]
          refine ⟨_, (r.examine e).handOut F v.modified, rfl, rfl, rfl, rfl, rfl, rfl,
            fun e' v' hv' hpassed => ?_⟩
          refine Function.update_of_ne ?_ ..
          rintro rfl
          obtain rfl : v = v' := Option.some.inj (hv.symm.trans hv')
          rw [hfound] at hpassed
          cases hpassed

lemma exists_reads (trustEmail : Bool) (hlower : LowerLaws P.toLowercase) (now : Instant) :
    ∀ (es : List ε) {w : World ε τ} {r : Running ε τ}, w.running = some r → r.unread = es → es.Nodup →
      (∀ e ∈ es, e ∉ r.examined) →
      ∃ w' r', (directorySync P F trustEmail).run w
          ((es.map fun e => (e, now, none)).map fun x => .read x.1 x.2.1 x.2.2) = some w' ∧
        w'.running = some r' ∧ r'.unread = [] ∧ w'.entries = w.entries ∧
        ∀ e v, w.entries.lookup e = some v → found F r.filter v.modified = false → w'.users e = w.users e
  | [], w, r, hrunning, hunread, _, _ =>
      ⟨w, r, rfl, hrunning, hunread, rfl, fun _ _ _ _ => rfl⟩
  | e :: es, w, r, hrunning, hunread, hnodup, hnew => by
      obtain ⟨w₁, r₁, hstep, hrunning₁, hunread₁, hexamined₁, hfilter₁, hentries₁, husers₁⟩ :=
        exists_read (P := P) (F := F) hlower hrunning (hnew e List.mem_cons_self)
      obtain ⟨hnot, hnodup⟩ := List.nodup_cons.mp hnodup
      obtain ⟨w₂, r₂, hrun, hrunning₂, hunread₂, hentries₂, husers₂⟩ :=
        exists_reads trustEmail hlower now es hrunning₁ (by rw [hunread₁, hunread, List.erase_cons_head]) hnodup
          (by
            intro e' he' hmem
            rw [hexamined₁] at hmem
            rcases List.mem_cons.mp hmem with rfl | hmem
            · exact hnot he'
            · exact hnew e' (List.mem_cons_of_mem _ he') hmem)
      refine ⟨w₂, r₂, Machine.run_cons.mpr ⟨w₁, hstep, hrun⟩, hrunning₂, hunread₂,
        hentries₂.trans hentries₁, fun e' v hv hpassed => ?_⟩
      rw [husers₂ e' v (by rw [hentries₁]; exact hv) (by rw [hfilter₁]; exact hpassed)]
      exact husers₁ e' v hv hpassed

/-- **What converging takes**, while no sync is running. -/
theorem converges_iff (hlower : LowerLaws P.toLowercase) (hidle : w.running = none) :
    w.Converges P F trustEmail ↔ w.Covered P F := by
  refine ⟨fun h e t ht => ?_, fun h => h.converges hlower⟩
  by_contra hpassed
  obtain ⟨v, l, hv, hl, hold, rfl⟩ := stale_eq_some.mp ht
  -- a sync that comes to every entry passes this one
  let started : World ε τ :=
    { w with running := some ⟨w.syncCursor, w.syncCursor, w.entries.keys, [], []⟩ }
  obtain ⟨w', r, hreads, hrunning, hunread, hentries, husers⟩ :=
    exists_reads (F := F) trustEmail hlower 0 w.entries.keys (w := started) rfl rfl
      w.entries.keys_nodup (fun _ _ => List.not_mem_nil)
  have hstart : (directorySync P F trustEmail).step w (.start false) = some started := by
    simp only [directorySync, hidle]
    rfl
  have hfinish : (directorySync P F trustEmail).step w' .finish =
      some { w' with syncCursor := r.cursor.or w'.syncCursor, running := none } := by
    simp only [directorySync, hrunning, if_pos hunread]
  have hupToDate : World.UpToDate P
      { w' with syncCursor := r.cursor.or w'.syncCursor, running := none } := by
    refine h false (w.entries.keys.map fun e => (e, 0, none)) _ (Machine.run_cons.mpr ⟨started, hstart, ?_⟩)
    exact Machine.run_append.mpr ⟨w', hreads, Machine.run_cons.mpr ⟨_, hfinish, rfl⟩⟩
  have huser : w'.users e = some l :=
    (husers e v hv (Bool.eq_false_of_not_eq_true hpassed)).trans hl
  exact hold (hupToDate e l v huser (by rw [hentries]; exact hv))

/-! ## What every step keeps -/

omit [DecidableEq ε] in
lemma stamp_inj {s t : τ} (h : F.stamp s = F.stamp t) : s = t := by
  have hdigits : F.digits s = F.digits t := by
    have hkey := F.key_stamp s
    rw [h, F.key_stamp] at hkey
    exact (Option.some.inj hkey).symm
  refine le_antisymm (not_lt.mp fun hlt => ?_) (not_lt.mp fun hlt => ?_)
  · have := (F.digits_lt t s).mpr hlt
    rw [hdigits] at this
    exact String.lt_irrefl _ this
  · have := (F.digits_lt s t).mpr hlt
    rw [hdigits] at this
    exact String.lt_irrefl _ this

lemma World.Timely.step (hlower : LowerLaws P.toLowercase) (h : w.Timely F)
    (hstep : (directorySync P F trustEmail).step w a = some w') : w'.Timely F := by
  cases a with
  | tick t =>
      simp only [directorySync] at hstep
      split_ifs at hstep with hle
      cases hstep
      refine ⟨fun e v hv => (h.entries e v hv).trans hle, fun c hc => ?_, fun r hr => ?_⟩
      · obtain ⟨s, hs, rfl⟩ := h.stored c hc
        exact ⟨s, hs.trans hle, rfl⟩
      · obtain ⟨hreached, hhanded, hfilter⟩ := h.running r hr
        exact ⟨hreached, fun s hs => (hhanded s hs).trans hle, hfilter⟩
  | change e data =>
      cases data with
      | some data =>
          cases hstep
          refine ⟨fun e' v hv => ?_, h.stored, h.running⟩
          by_cases he : e' = e
          · subst he
            rw [AList.lookup_insert] at hv
            cases hv
            exact le_rfl
          · rw [AList.lookup_insert_ne he] at hv
            exact h.entries e' v hv
      | none =>
          cases hstep
          refine ⟨fun e' v hv => ?_, h.stored, h.running⟩
          by_cases he : e' = e
          · subst he
            rw [AList.lookup_erase] at hv
            cases hv
          · rw [AList.lookup_erase_ne he] at hv
            exact h.entries e' v hv
  | start full =>
      simp only [directorySync] at hstep
      split at hstep
      · cases hstep
      · cases hstep
        refine ⟨h.entries, h.stored, fun r hr => ?_⟩
        cases hr
        refine ⟨?_, fun s hs => absurd hs List.not_mem_nil, ?_⟩
        · cases hc : w.syncCursor with
          | none => exact Or.inl ⟨rfl, rfl, rfl⟩
          | some c =>
              obtain ⟨t, -, rfl⟩ := h.stored c hc
              refine Or.inr ⟨t, rfl, fun s hs => absurd hs List.not_mem_nil, fun s hs => ?_, Or.inr rfl⟩
              exact (stamp_inj (Option.some.inj hs)).ge
        · cases full with
          | false => exact Or.inr rfl
          | true => exact Or.inl rfl
  | read e now resolved =>
      obtain ⟨r, hrunning, -, ⟨-, rfl⟩ | ⟨v, l, hv, -, rfl⟩⟩ := read_cases hlower hstep
      · obtain ⟨hreached, hhanded, hfilter⟩ := h.running r hrunning
        refine ⟨h.entries, h.stored, fun r' hr' => ?_⟩
        cases hr'
        exact ⟨hreached, hhanded, hfilter⟩
      · obtain ⟨hreached, hhanded, hfilter⟩ := h.running r hrunning
        refine ⟨h.entries, h.stored, fun r' hr' => ?_⟩
        cases hr'
        refine ⟨Running.Reached.handedOut (r := r.examine e) hreached v.modified, fun s hs => ?_, hfilter⟩
        rcases List.mem_cons.mp hs with rfl | hs
        · exact h.entries e v hv
        · exact hhanded s hs
  | finish =>
      simp only [directorySync] at hstep
      split at hstep
      · cases hstep
      · rename_i r hrunning
        obtain ⟨hreached, hhanded, -⟩ := h.running r hrunning
        split_ifs at hstep
        cases hstep
        refine ⟨h.entries, fun c hc => ?_, nofun⟩
        dsimp only at hc
        rcases hreached with ⟨hcursor, -, -⟩ | ⟨m, hcursor, -, -, hfrom⟩
        · rw [hcursor, Option.none_or] at hc
          exact h.stored c hc
        · rw [hcursor, Option.some_or, Option.some.injEq] at hc
          rcases hfrom with hmem | hstored
          · exact ⟨m, hhanded m hmem, hc.symm⟩
          · exact h.stored c (hc ▸ hstored)

/-- Until a search ends, what is out of date stays covered: a change comes at a time the cursor has not
passed. -/
lemma World.Covered.step (hlower : LowerLaws P.toLowercase) (htimely : w.Timely F)
    (h : w.Covered P F) (hstep : (directorySync P F trustEmail).step w a = some w')
    (ha : a ≠ .finish) : w'.Covered P F := by
  cases a with
  | tick t =>
      simp only [directorySync] at hstep
      split_ifs at hstep
      cases hstep
      exact h
  | change e data =>
      intro e' t ht
      obtain ⟨v, l, hv, hl, hnot, rfl⟩ := stale_eq_some.mp ht
      by_cases he : e' = e
      · subst he
        cases data with
        | none =>
            cases hstep
            rw [AList.lookup_erase] at hv
            cases hv
        | some data =>
            cases hstep
            rw [AList.lookup_insert] at hv
            cases hv
            rw [found]
            cases hc : w.syncCursor with
            | none => rfl
            | some c =>
                obtain ⟨t, ht, rfl⟩ := htimely.stored c hc
                exact (F.ge_stamp t w.clock).mpr ht
      · cases data with
        | none =>
            cases hstep
            rw [AList.lookup_erase_ne he] at hv
            exact h e' _ (stale_eq_some.mpr ⟨v, l, hv, hl, hnot, rfl⟩)
        | some data =>
            cases hstep
            rw [AList.lookup_insert_ne he] at hv
            exact h e' _ (stale_eq_some.mpr ⟨v, l, hv, hl, hnot, rfl⟩)
  | start full =>
      simp only [directorySync] at hstep
      split at hstep
      · cases hstep
      · cases hstep
        exact h
  | read e now resolved =>
      intro e' t ht
      have hbefore := h e' t (stale_read hlower hstep ht)
      obtain ⟨r, -, -, ⟨-, rfl⟩ | ⟨v, l, -, -, rfl⟩⟩ := read_cases hlower hstep
      · exact hbefore
      · exact hbefore
  | finish => exact absurd rfl ha

/-- **The end of a search.**  What is out of date is covered by the new cursor exactly when it was
changed no earlier than what the search handed out. -/
lemma covered_finish (htimely : w.Timely F) (h : w.Covered P F)
    (hstep : (directorySync P F trustEmail).step w .finish = some w') :
    w'.running = none ∧ (w'.Covered P F ↔ InOrder P w .finish) := by
  simp only [directorySync] at hstep
  split at hstep
  · cases hstep
  · rename_i r hrunning
    split_ifs at hstep
    cases hstep
    refine ⟨rfl, ?_⟩
    have horder : InOrder P w .finish ↔
        ∀ e t, w.stale P e = some t → ∀ s ∈ r.handedOut, s ≤ t := by
      rw [InOrder, hrunning]
      dsimp only
      constructor
      · intro hall e t ht s hs
        obtain ⟨v, l, hv, -, -, -⟩ := stale_eq_some.mp ht
        have hmem : e ∈ w.entries.keys := AList.lookup_isSome.mp (by rw [hv]; rfl)
        have he := hall e hmem
        rw [ht, Option.all_some, List.all_eq_true] at he
        exact of_decide_eq_true (he s hs)
      · intro hall e _
        cases ht : w.stale P e with
        | none => rfl
        | some t =>
            rw [Option.all_some, List.all_eq_true]
            exact fun s hs => decide_eq_true (hall e t ht s hs)
    rw [horder]
    change (∀ e t, w.stale P e = some t → found F (r.cursor.or w.syncCursor) t = true) ↔ _
    rcases (htimely.running r hrunning).1 with ⟨hcursor, hstored, hnone⟩ | ⟨m, hcursor, hall, -, hfrom⟩
    · rw [hcursor, hstored, hnone]
      exact iff_of_true (fun _ _ _ => rfl) fun _ _ _ s hs => absurd hs List.not_mem_nil
    · rw [hcursor, Option.some_or]
      constructor
      · intro hcovered e t ht s hs
        exact (hall s hs).trans ((found_stamp m t).mp (hcovered e t ht))
      · intro hinOrder e t ht
        rw [found_stamp]
        rcases hfrom with hmem | hstored
        · exact hinOrder e t ht m hmem
        · have hbefore := h e t ht
          rw [hstored, found_stamp] at hbefore
          exact hbefore

/-- No sync has run yet, and the clock is not behind the entries. -/
structure World.Fresh (w : World ε τ) : Prop where
  running : w.running = none
  syncCursor : w.syncCursor = none
  entries : ∀ e v, w.entries.lookup e = some v → v.modified ≤ w.clock

/-- **An incremental sync misses no change**, however entries are written while others run, exactly when
no search ends with an entry out of date that was last modified before another one the search handed
out: then, and only then, every sync that runs while nothing changes brings every user up to date. -/
theorem incremental_sync_iff (P : Platform) (F : TimeFormat τ) (trustEmail : Bool)
    (hlower : LowerLaws P.toLowercase) {w w' : World ε τ} {as : List (Action ε τ)} (hfresh : w.Fresh)
    (hrun : (directorySync P F trustEmail).run w as = some w') :
    (∀ bs cs v, as = bs ++ cs → (directorySync P F trustEmail).run w bs = some v →
        v.Converges P F trustEmail) ↔
      (directorySync P F trustEmail).Meets (InOrder P) w as := by
  have hcovered : w.Covered P F := by
    intro e t _
    rw [hfresh.syncCursor]
    rfl
  have htimely : w.Timely F := by
    refine ⟨hfresh.entries, fun c hc => ?_, fun r hr => ?_⟩
    · rw [hfresh.syncCursor] at hc
      cases hc
    · rw [hfresh.running] at hr
      cases hr
  refine Machine.always_iff_meets
    (I := fun v => v.Timely F ∧ (v.running ≠ none → v.Covered P F))
    (G := fun v => v.Converges P F trustEmail) (A := fun _ => True) ?_ (fun _ _ => trivial) hrun
    ⟨htimely, fun hrunning => absurd hfresh.running hrunning⟩ (hcovered.converges hlower)
  rintro v a v' - ⟨hI, hrunning⟩ hG hstep
  have hbefore : v.Covered P F := by
    by_cases hidle : v.running = none
    · exact (converges_iff hlower hidle).mp hG
    · exact hrunning hidle
  have hI' := hI.step hlower hstep
  by_cases ha : a = .finish
  · subst ha
    obtain ⟨hidle, hiff⟩ := covered_finish hI hbefore hstep
    exact ⟨⟨hI', fun hno => absurd hidle hno⟩, (converges_iff hlower hidle).trans hiff⟩
  · have hafter := hbefore.step hlower hI hstep ha
    refine ⟨⟨hI', fun _ => hafter⟩, iff_of_true (hafter.converges hlower) ?_⟩
    cases a with
    | finish => exact absurd rfl ha
    | tick t => trivial
    | change e data => trivial
    | start full => trivial
    | read e now resolved => trivial

end

/-! ## Runs -/

def samplePlatform : Platform where
  toLowercase := toAsciiLowercase
  validateEmail _ := true
  regex _ := none
  urlScheme _ := none
  parseDate _ := none
  asF64 _ := 0
  f64Text _ := ""

def second (t : Fin 10) : String := String.ofList ("2026092212000".toList ++ [Nat.digitChar t, 'Z'])

def sampleFormat : TimeFormat (Fin 10) where
  stamp := second
  ge c t := c ≤ second t
  digits t := String.ofList ((second t).toList.take 14)
  key_stamp := by decide +kernel
  digits_lt := by decide +kernel
  ge_stamp := by decide +kernel

def under (dn : String) : Data := ⟨dn, ⟨none, none⟩, false⟩

def sampleWorld : World ℕ (Fin 10) where
  clock := 1
  entries := ((∅ : AList _).insert 1 ⟨under "uid=ann,ou=x", 0⟩).insert 2 ⟨under "uid=bob,ou=x", 1⟩
  users e :=
    if e = 1 ∨ e = 2 then some ⟨{ id := BitVec.ofNat 128 e, username := "u", createdAt := 0, updatedAt := 0 }, none⟩
    else none
  syncCursor := none
  running := none

lemma sampleWorld_fresh : sampleWorld.Fresh := by
  refine ⟨rfl, rfl, fun e v hv => ?_⟩
  rw [sampleWorld] at hv
  by_cases h2 : e = 2
  · subst h2
    rw [AList.lookup_insert] at hv
    cases hv
    decide
  · rw [AList.lookup_insert_ne h2] at hv
    by_cases h1 : e = 1
    · subst h1
      rw [AList.lookup_insert] at hv
      cases hv
      decide
    · rw [AList.lookup_insert_ne h1, AList.lookup_empty] at hv
      cases hv

def inTurn : List (Action ℕ (Fin 10)) := [.start false, .read 1 0 none, .read 2 0 none, .finish]

def moved : Action ℕ (Fin 10) := .change 1 (some (under "uid=ann,ou=y"))

def changedInTime : List (Action ℕ (Fin 10)) :=
  inTurn ++ [.tick 2, .start false, moved, .read 1 0 none, .tick 3, moved, .read 2 0 none, .finish]

theorem incremental_sync_in_turn :
    ∃ w, (directorySync samplePlatform sampleFormat false).run sampleWorld changedInTime = some w ∧
      w.syncCursor = some "20260922120002Z" ∧ w.Converges samplePlatform sampleFormat false := by
  have hany : ((directorySync samplePlatform sampleFormat false).run sampleWorld changedInTime).any
      (fun w => w.syncCursor = some "20260922120002Z") = true := by decide +kernel
  obtain ⟨w, hrun, hcursor⟩ := Machine.exists_run_of_any hany
  refine ⟨w, hrun, of_decide_eq_true hcursor, ?_⟩
  exact (incremental_sync_iff samplePlatform sampleFormat false lowerLaws_ascii sampleWorld_fresh hrun).mpr
    (by decide +kernel) _ [] w (List.append_nil _).symm hrun

def changedBehind : List (Action ℕ (Fin 10)) :=
  [.start false, .read 1 0 none, .tick 2, moved, .tick 3, .change 2 (some (under "uid=bob,ou=y")),
    .read 2 0 none, .finish]

/-- **A change is missed**: a sync that runs while nothing changes passes the first entry, and leaves its
user with the DN it had. -/
theorem change_missed :
    ∃ w w', (directorySync samplePlatform sampleFormat false).run sampleWorld changedBehind = some w ∧
      (directorySync samplePlatform sampleFormat false).run w inTurn = some w' ∧
      (w'.users 1).bind (·.externalDn) = some "uid=ann,ou=x" ∧
      (w'.entries.lookup 1).map (·.data.dn) = some "uid=ann,ou=y" := by
  have hany : ((directorySync samplePlatform sampleFormat false).run sampleWorld changedBehind).any
      (fun w => ((directorySync samplePlatform sampleFormat false).run w inTurn).any fun w' =>
        (w'.users 1).bind (·.externalDn) = some "uid=ann,ou=x" ∧
          (w'.entries.lookup 1).map (·.data.dn) = some "uid=ann,ou=y") = true := by decide +kernel
  obtain ⟨w, hrun, hsync⟩ := Machine.exists_run_of_any hany
  obtain ⟨w', hsync, hmissed⟩ := Machine.exists_run_of_any hsync
  exact ⟨w, w', hrun, hsync, of_decide_eq_true hmissed⟩

end Ridm.Ldap.Incremental
