import Ridm.Passwords.Changes

/-!
# A password reset link

`complete_password_reset` of `api/src/services/recovery.rs`, any number of calls with one token.  A call reads
the key of the token, goes through `set_password`, and deletes the key only then, so that a refused password
does not use the link up.

In between, another call may have set its own.  `set_password` notices a hash that changed since it read the
user, but not one that changed before.  `reset_link_once_iff` says when one call at most changes the
password, and `link_works_twice` is a schedule in which two do.
-/

namespace Ridm.Passwords

/-! ## Calls -/

/-- The key of the token, the account behind it, and how often the calls changed its password. -/
structure ResetStore where
  link : Bool
  password : Store
  locked : Bool
  emailVerified : Bool
  changes : ℕ

/-- Where a call of `complete_password_reset` stands; `seen` is how often the password had been changed when
`set_password` read the user. -/
inductive ResetCall
  | start (newPassword : String)
  | setting (pc : Pc) (seen : ℕ)
  | refused (e : AppError)
  | deleting
  | unlocking
  | done (answer : Except AppError Unit)
  deriving DecidableEq

/-- What is left open at a step: the salt, and whether the database or the cache fails. -/
structure Draw where
  salt : ℕ
  fails : Option AppError

/-- What happens meanwhile: time passes, and the key expires. -/
inductive ResetEvent
  | tick (d : ℕ)
  | expire

/-- The options of `complete_password_reset`. -/
def resetOptions : SetPasswordOptions := ⟨false, false⟩

section

variable (B : Backend) (policy : PasswordPolicy)

/-- The password was changed by a step of `set_password`, here or in the directory. -/
def changed (before after : Store) (pc : Pc) : Bool :=
  pc == .inDirectory || before.user.passwordHash != after.user.passwordHash

/-- What a call makes of where `set_password` stands. -/
def ResetCall.afterSet (seen : ℕ) : Pc → ResetCall
  | .changed _ | .inDirectory => .deleting
  | .failed e => .refused e
  | pc => .setting pc seen

/-- What `set_password` reads it reads in its first step. -/
def seenBy (changes seen : ℕ) : Pc → ℕ
  | .idle _ => changes
  | _ => seen

/-- One step of a call. -/
def ResetCall.act (g : ResetStore) (draw : Draw) : ResetCall → Option (ResetStore × ResetCall)
  | .start newPassword =>
      some (g, match draw.fails with
        | some e => .done (.error e)
        | none =>
            if g.link then .setting (.idle (.setPassword newPassword resetOptions)) 0
            else .done (.error (.notFound "reset token")))
  | .setting pc seen =>
      (Passwords.act B policy g.password draw.salt pc).map fun r =>
        ({ g with
            password := r.1
            changes := g.changes + if changed g.password r.1 r.2 then 1 else 0 },
          .afterSet (seenBy g.changes seen pc) r.2)
  | .deleting =>
      some (match draw.fails with
        | some e => (g, .done (.error e))
        | none => ({ g with link := false }, .unlocking))
  | .unlocking =>
      some (match draw.fails with
        | some e => (g, .done (.error e))
        | none => ({ g with locked := false, emailVerified := true }, .done (.ok ())))
  | .refused _ | .done _ => none

/-- What an event leaves. -/
def ResetEvent.apply (g : ResetStore) : ResetEvent → ResetStore
  | .tick d => { g with password := { g.password with now := g.password.now + d } }
  | .expire => { g with link := false }

/-- Any number of calls with the token. -/
def resetCalls (ι : Type) : Calls ι ResetStore ResetCall Draw ResetEvent where
  act _ g l draw := l.act B policy g draw
  env g e := some (e.apply g)

/-! ## Single steps -/

/-- `set_password` of a call: what it may be at, and what it has read. -/
inductive Setting (first : Option String) : Pc → ℕ → Prop
  | idle (password : String) (seen : ℕ) : Setting first (.idle (.setPassword password resetOptions)) seen
  | checking (password : String) (user : User) (history : List String) (seen : ℕ)
      (hlocal : ∃ p, B.ldapSetPassword p = .ok false) (hread : seen = 0 → user.passwordHash = first) :
      Setting first (.checking password resetOptions user history) seen
  | hashed (password : String) (user : User) (hash : String) (expiresAt : Option Instant) (seen : ℕ)
      (hlocal : ∃ p, B.ldapSetPassword p = .ok false) (hread : seen = 0 → user.passwordHash = first) :
      Setting first (.hashed password resetOptions user hash expiresAt) seen
  | committed (password : String) (seen : ℕ) : Setting first (.committed password) seen

/-- What the calls have changed: nothing, or the password is another than at first. -/
structure Counted (first : Option String) (g : ResetStore) : Prop where
  none : g.changes = 0 → g.password.user.passwordHash = first
  one : g.changes = 1 → (∃ p, B.ldapSetPassword p = .ok false) → g.password.user.passwordHash ≠ first

/-- A step of `set_password` writes nothing where another call has changed the password since this one took the
link: the directory is not written to again, and who finds the row as it was read had read it before any
change. -/
def TimelyAt (g : ResetStore) (seen : ℕ) : Pc → Prop
  | .idle (.setPassword password _) => B.ldapSetPassword password = .ok true → g.changes = 0
  | .hashed _ _ user hash _ => g.password.user.passwordHash = user.passwordHash →
      g.password.user.passwordHash ≠ some hash → seen = 0
  | _ => True

def Timely {ι : Type} (w : Pool ι ResetStore ResetCall) : Pick ι Draw ResetEvent → Prop
  | .call i _ => match w.calls i with
      | .setting pc seen => TimelyAt B w.shared seen pc
      | _ => True
  | .env _ => True

/-- The call has changed the password, or ended before it came to that. -/
def ResetCall.written : ResetCall → Bool
  | .setting (.committed _) _ | .deleting | .unlocking | .done _ => true
  | _ => false

variable {B} {policy} {first : Option String} {g g' : ResetStore} {l l' : ResetCall} {draw : Draw} {pc : Pc}
  {seen : ℕ}

lemma act_setting (h : ResetCall.act B policy g draw (.setting pc seen) = some (g', l')) :
    ∃ password pc', act B policy g.password draw.salt pc = some (password, pc') ∧
      g' = { g with
        password := password
        changes := g.changes + if changed g.password password pc' then 1 else 0 } ∧
      l' = .afterSet (seenBy g.changes seen pc) pc' := by
  rw [ResetCall.act, Option.map_eq_some_iff] at h
  obtain ⟨⟨password, pc'⟩, hact, heq⟩ := h
  cases heq
  exact ⟨password, pc', hact, rfl, rfl⟩

lemma setting_same (hpc : pc ≠ .inDirectory) : ({ g with
    password := g.password
    changes := g.changes + if changed g.password g.password pc then 1 else 0 } : ResetStore) = g := by
  simp [changed, hpc]

lemma commitPassword_cases (g : Store) (password hash : String) (opts : SetPasswordOptions) (user : User)
    (expiresAt : Option Instant) :
    (∃ g', commitPassword B policy g password opts user hash expiresAt = .ok g' ∧
      g.user.passwordHash = user.passwordHash ∧ g'.user.passwordHash = some hash) ∨
    ∃ e, commitPassword B policy g password opts user hash expiresAt = .error e ∧
      g.user.passwordHash ≠ user.passwordHash := by
  cases hcommit : commitPassword B policy g password opts user hash expiresAt with
  | ok g' =>
      have hhash := (commitPassword_ok hcommit).1
      simp only [commitPassword, bind_eq_ok, require_eq_ok, decide_eq_true_eq] at hcommit
      obtain ⟨_, hsame, -⟩ := hcommit
      exact .inl ⟨g', rfl, hsame, hhash⟩
  | error e =>
      refine .inr ⟨e, rfl, fun hsame => ?_⟩
      simp [commitPassword, require, hsame, bind, Except.bind] at hcommit

/-- **A step of `set_password`.**  One change at most has been counted after it exactly when it is timely, and
until it has written it has left everything as it was. -/
lemma setting_step (hkept : ∀ p q, B.ldapSetPassword p = .ok false → B.ldapSetPassword q ≠ .ok true)
    (hcounted : Counted B first g) (hsetting : Setting B first pc seen) (hseen : seen ≤ g.changes)
    (h : ResetCall.act B policy g draw (.setting pc seen) = some (g', l')) :
    (Counted B first g' ∧ g.changes ≤ g'.changes ∧
      ∀ pc' seen', l' = .setting pc' seen' → Setting B first pc' seen' ∧ seen' ≤ g'.changes) ∧
    (l'.written = true ∨ g' = g) ∧
    (g.changes ≤ 1 → (g'.changes ≤ 1 ↔ TimelyAt B g seen pc)) := by
  obtain ⟨password, pc', hact, rfl, rfl⟩ := act_setting h
  cases hsetting with
  | idle newPassword =>
      rw [act] at hact
      cases hldap : B.ldapSetPassword newPassword with
      | error e =>
          simp only [hldap] at hact
          cases hact
          rw [setting_same (by simp)]
          exact ⟨⟨hcounted, le_rfl, by simp [ResetCall.afterSet]⟩, .inr rfl,
            fun hone => iff_of_true hone (by simp [TimelyAt, hldap])⟩
      | ok kept =>
          cases kept with
          | false =>
              simp only [hldap] at hact
              cases hact
              rw [setting_same (by simp)]
              refine ⟨⟨hcounted, le_rfl, ?_⟩, .inr rfl, fun hone => iff_of_true hone (by simp [TimelyAt, hldap])⟩
              rintro pc' seen' heq
              cases heq
              exact ⟨.checking newPassword _ _ _ ⟨newPassword, hldap⟩ hcounted.none, le_rfl⟩
          | true =>
              simp only [hldap] at hact
              cases hact
              have hnew : g.changes + (if changed g.password g.password .inDirectory then 1 else 0) =
                  g.changes + 1 := by
                simp [changed]
              rw [hnew]
              refine ⟨⟨⟨?_, ?_⟩, ?_, by simp [ResetCall.afterSet]⟩, .inl rfl, fun hone => ?_⟩
              · simp
              · rintro - ⟨p, hp⟩
                exact absurd hldap (hkept p newPassword hp)
              · show g.changes ≤ g.changes + 1
                omega
              · simp only [TimelyAt, hldap, forall_const]
                show g.changes + 1 ≤ 1 ↔ g.changes = 0
                omega
  | checking newPassword user history _ hlocal hread =>
      rw [act] at hact
      split at hact
      · cases hact
        rw [setting_same (by simp)]
        refine ⟨⟨hcounted, le_rfl, ?_⟩, .inr rfl, fun hone => iff_of_true hone trivial⟩
        rintro pc' seen' heq
        cases heq
        exact ⟨.hashed newPassword user _ _ _ hlocal hread, hseen⟩
      · cases hact
        rw [setting_same (by simp)]
        exact ⟨⟨hcounted, le_rfl, by simp [ResetCall.afterSet]⟩, .inr rfl,
          fun hone => iff_of_true hone trivial⟩
  | hashed newPassword user hash expiresAt _ hlocal hread =>
      rw [act] at hact
      rcases commitPassword_cases g.password newPassword hash resetOptions user expiresAt with
        ⟨_, hcommit, hsame, hhash⟩ | ⟨e, hcommit, hother⟩
      · rw [hcommit] at hact
        cases hact
        by_cases hrow : g.password.user.passwordHash = some hash
        · -- the same hash again is no change
          have hnew : g.changes + (if changed g.password password (.committed newPassword) then 1 else 0) =
              g.changes := by
            simp [changed, hrow, hhash]
          rw [hnew]
          refine ⟨⟨⟨?_, ?_⟩, le_rfl, ?_⟩, .inl rfl, fun hone => iff_of_true hone (fun _ hne => absurd hrow hne)⟩
          · intro hzero
            exact hhash.trans (hrow.symm.trans (hcounted.none hzero))
          · intro hone hp
            rw [hhash, ← hrow]
            exact hcounted.one hone hp
          · rintro pc' seen' heq
            cases heq
            exact ⟨.committed newPassword _, hseen⟩
        · have hnew : g.changes + (if changed g.password password (.committed newPassword) then 1 else 0) =
              g.changes + 1 := by
            simp [changed, hrow, hhash]
          rw [hnew]
          refine ⟨⟨⟨by simp, ?_⟩, ?_, ?_⟩, .inl rfl, fun hone => ?_⟩
          · rintro hone -
            have hzero : g.changes = 0 := Nat.succ.inj hone
            rw [hhash, ← hcounted.none hzero]
            exact Ne.symm hrow
          · show g.changes ≤ g.changes + 1
            omega
          · rintro pc' seen' heq
            cases heq
            exact ⟨.committed newPassword _, Nat.le_succ_of_le hseen⟩
          · show g.changes + 1 ≤ 1 ↔ _
            constructor
            · intro hle _ _
              omega
            · intro htimely
              have hzero := htimely hsame hrow
              by_contra hmore
              exact hcounted.one (by omega) hlocal (hsame.trans (hread hzero))
      · rw [hcommit] at hact
        cases hact
        rw [setting_same (by simp)]
        exact ⟨⟨hcounted, le_rfl, by simp [ResetCall.afterSet]⟩, .inr rfl,
          fun hone => iff_of_true hone fun hsame => absurd hsame hother⟩
  | committed newPassword =>
      rw [act] at hact
      cases hact
      rw [setting_same (by simp)]
      exact ⟨⟨hcounted, le_rfl, by simp [ResetCall.afterSet]⟩, .inl rfl, fun hone => iff_of_true hone trivial⟩

lemma other_step (hpc : ∀ pc seen, l ≠ .setting pc seen) (h : l.act B policy g draw = some (g', l')) :
    (g'.password = g.password ∧ g'.changes = g.changes) ∧ (l'.written = true ∨ g' = g) ∧
      ∀ pc seen, l' = .setting pc seen → Setting B first pc seen ∧ seen = 0 := by
  cases l with
  | start newPassword =>
      rw [ResetCall.act] at h
      cases h
      refine ⟨⟨rfl, rfl⟩, ?_, ?_⟩
      · split
        · exact .inl rfl
        · split_ifs
          · exact .inr rfl
          · exact .inl rfl
      · intro pc seen heq
        split at heq
        · cases heq
        · split_ifs at heq
          · cases heq
            exact ⟨.idle newPassword 0, rfl⟩
  | setting pc seen => exact absurd rfl (hpc pc seen)
  | deleting =>
      rw [ResetCall.act] at h
      split at h <;> cases h <;> exact ⟨⟨rfl, rfl⟩, .inl rfl, by simp⟩
  | unlocking =>
      rw [ResetCall.act] at h
      split at h <;> cases h <;> exact ⟨⟨rfl, rfl⟩, .inl rfl, by simp⟩
  | refused e => cases h
  | done answer => cases h

lemma written_stays (hwritten : l.written = true) (h : l.act B policy g draw = some (g', l')) :
    l'.written = true := by
  cases l with
  | setting pc seen =>
      obtain ⟨password, pc', hact, rfl, rfl⟩ := act_setting h
      cases pc with
      | committed newPassword =>
          rw [act] at hact
          cases hact
          rfl
      | _ => cases hwritten
  | deleting =>
      rw [ResetCall.act] at h
      split at h <;> cases h <;> rfl
  | unlocking =>
      rw [ResetCall.act] at h
      split at h <;> cases h <;> rfl
  | start newPassword => cases hwritten
  | refused e => cases hwritten
  | done answer => cases h

/-! ## Every schedule -/

variable {ι : Type} [DecidableEq ι] {w w' : Pool ι ResetStore ResetCall} {picks : List (Pick ι Draw ResetEvent)}

variable (B) in
/-- What the store and every call in `set_password` keep. -/
structure LinkInv (first : Option String) (w : Pool ι ResetStore ResetCall) : Prop where
  counted : Counted B first w.shared
  setting : ∀ i pc seen, w.calls i = .setting pc seen → Setting B first pc seen ∧ seen ≤ w.shared.changes

/-- **One pick of a schedule.** -/
lemma linkInv_step (hkept : ∀ p q, B.ldapSetPassword p = .ok false → B.ldapSetPassword q ≠ .ok true)
    {pick : Pick ι Draw ResetEvent} (h : LinkInv B first w)
    (hstep : (resetCalls B policy ι).machine.step w pick = some w') :
    LinkInv B first w' ∧
      (∀ i draw, pick = .call i draw →
        (w'.calls i).written = true ∨ w'.shared = w.shared) ∧
      (w.shared.changes ≤ 1 → (w'.shared.changes ≤ 1 ↔ Timely B w pick)) := by
  cases pick with
  | env e =>
      obtain ⟨g, hg, rfl⟩ := Calls.step_env.mp hstep
      obtain rfl := Option.some.inj hg
      have hsame : (e.apply w.shared).changes = w.shared.changes ∧
          (e.apply w.shared).password.user = w.shared.password.user := by
        cases e <;> exact ⟨rfl, rfl⟩
      refine ⟨⟨⟨?_, ?_⟩, ?_⟩, by simp, fun hone => iff_of_true (hsame.1 ▸ hone) trivial⟩
      · rw [hsame.1, hsame.2]
        exact h.counted.none
      · rw [hsame.1, hsame.2]
        exact h.counted.one
      · rw [hsame.1]
        exact h.setting
  | call i draw =>
      obtain ⟨g, l, hact, rfl⟩ := Calls.step_call.mp hstep
      have hact : (w.calls i).act B policy w.shared draw = some (g, l) := hact
      -- what the store keeps, and the call that took the step, every call keeps
      have hall : Counted B first g → w.shared.changes ≤ g.changes →
          (∀ pc seen, l = .setting pc seen → Setting B first pc seen ∧ seen ≤ g.changes) →
            LinkInv B first (w.next i g l) := by
        intro hcounted hmono hown
        refine ⟨hcounted, Pool.next_forall (p := fun _ l => ∀ pc seen, l = ResetCall.setting pc seen →
          Setting B first pc seen ∧ seen ≤ g.changes) hown fun j _ pc seen hj => ?_⟩
        obtain ⟨hsetting, hseen⟩ := h.setting j pc seen hj
        exact ⟨hsetting, hseen.trans hmono⟩
      have hself : ∀ {P : ResetCall → Prop}, P l → ∀ j d, Pick.call i draw = (.call j d : Pick ι Draw ResetEvent) →
          P ((w.next i g l).calls j) := by
        rintro P hl j d heq
        cases heq
        rwa [Pool.next_self]
      by_cases hpc : ∃ pc seen, w.calls i = .setting pc seen
      · obtain ⟨pc, seen, hcall⟩ := hpc
        obtain ⟨hsetting, hseen⟩ := h.setting i pc seen hcall
        rw [hcall] at hact
        obtain ⟨⟨hcounted, hmono, hown⟩, hwritten, hiff⟩ := setting_step hkept h.counted hsetting hseen hact
        refine ⟨hall hcounted hmono hown, hself (P := fun l => l.written = true ∨ g = w.shared) hwritten, ?_⟩
        simpa [Timely, hcall] using hiff
      · have hno : ∀ pc seen, w.calls i ≠ .setting pc seen := fun pc seen heq => hpc ⟨pc, seen, heq⟩
        obtain ⟨⟨hpassword, hchanges⟩, hwritten, hown⟩ :
            (g.password = w.shared.password ∧ g.changes = w.shared.changes) ∧
              (l.written = true ∨ g = w.shared) ∧
              ∀ pc seen, l = .setting pc seen → Setting B first pc seen ∧ seen = 0 := other_step hno hact
        have hcounted : Counted B first g := by
          refine ⟨?_, ?_⟩ <;> rw [hchanges, hpassword]
          · exact h.counted.none
          · exact h.counted.one
        refine ⟨hall hcounted hchanges.ge fun pc seen hl => ?_, hself (P := fun l => l.written = true ∨ g = w.shared) hwritten,
          fun hone => iff_of_true (hchanges.le.trans hone) ?_⟩
        · obtain ⟨hsetting, rfl⟩ := hown pc seen hl
          exact ⟨hsetting, Nat.zero_le _⟩
        · unfold Timely
          split <;> rename_i hcall
          · split
            · rename_i pc seen heq
              cases hcall
              exact absurd heq (hno pc seen)
            · trivial
          · trivial

omit [DecidableEq ι] in
lemma linkInv_start (hstart : ∀ i, ∃ newPassword, w.calls i = .start newPassword)
    (hnew : w.shared.changes = 0) : LinkInv B w.shared.password.user.passwordHash w where
  counted := ⟨fun _ => rfl, fun hone => by omega⟩
  setting i pc seen hi := by
    obtain ⟨newPassword, hcall⟩ := hstart i
    rw [hcall] at hi
    cases hi

lemma not_refused_of_written {i : ι} {e : AppError} (hwritten : (w.calls i).written = true)
    (hrun : (resetCalls B policy ι).machine.run w picks = some w') : w'.calls i ≠ .refused e := by
  have hlast : (w'.calls i).written = true := by
    refine Calls.run_inv (I := fun w => (w.calls i).written = true) (C := fun _ _ => True) ?_ ?_
      (Machine.meets_of_forall (fun _ _ => trivial) _ _) hrun hwritten
    · intro w j draw g l hi _ hact
      by_cases hij : i = j
      · subst hij
        rw [Pool.next_self]
        exact written_stays hi hact
      · rw [Pool.next_of_ne w hij]
        exact hi
    · intro w e g hi _ _
      exact hi
  intro hrefused
  rw [hrefused] at hlast
  cases hlast

/-- **When a reset link works once.**  In every schedule of calls with one token and any new passwords: a call
that `set_password` refuses has left the link, the password and the rest of the account as they were with each
step it took; and in all states reached the password was changed once at most, exactly when every step is
timely.  A user's password is in the directory or it is not (`hkept`). -/
theorem reset_link_once_iff (hkept : ∀ p q, B.ldapSetPassword p = .ok false → B.ldapSetPassword q ≠ .ok true)
    (hstart : ∀ i, ∃ newPassword, w.calls i = .start newPassword) (hnew : w.shared.changes = 0)
    (hrun : (resetCalls B policy ι).machine.run w picks = some w') :
    (∀ past i draw mid rest s s' t e, picks = past ++ .call i draw :: (mid ++ rest) →
        (resetCalls B policy ι).machine.run w past = some s →
        (resetCalls B policy ι).machine.step s (.call i draw) = some s' →
        (resetCalls B policy ι).machine.run s' mid = some t → t.calls i = .refused e → s'.shared = s.shared) ∧
      ((∀ past rest t, picks = past ++ rest → (resetCalls B policy ι).machine.run w past = some t →
        t.shared.changes ≤ 1) ↔ (resetCalls B policy ι).machine.Meets (Timely B) w picks) := by
  have hinv := linkInv_start (B := B) hstart hnew
  refine ⟨?_, ?_⟩
  · intro past i draw mid rest s s' t e _ hpast hstep hmid hrefused
    have hreached : LinkInv B w.shared.password.user.passwordHash s :=
      Machine.run_inv (C := fun _ _ => True) (fun hi _ hs => (linkInv_step hkept hi hs).1)
        (Machine.meets_of_forall (fun _ _ => trivial) _ _) hpast hinv
    rcases (linkInv_step hkept hreached hstep).2.1 i draw rfl with hwritten | hsame
    · exact absurd hrefused (not_refused_of_written hwritten hmid)
    · exact hsame
  · refine Machine.always_iff_meets (I := LinkInv B w.shared.password.user.passwordHash) (A := fun _ => True) ?_
      (fun _ _ => trivial) hrun hinv (by omega)
    rintro s pick s' - hi hone hstep
    exact ⟨(linkInv_step hkept hi hstep).1, (linkInv_step hkept hi hstep).2.2 hone⟩

end

/-! ## Two calls at once -/

def sampleReset : Pool (Fin 2) ResetStore ResetCall where
  shared :=
    { link := true
      password := ⟨seconds 0, ⟨some "aold", some "argon2id", false, none, none⟩, [], none⟩
      locked := false
      emailVerified := true
      changes := 0 }
  calls
    | 0 => .start "mine"
    | 1 => .start "theirs"

def resetTurns (i : Fin 2) (n : ℕ) : List (Pick (Fin 2) Draw ResetEvent) := List.replicate n (.call i ⟨1, none⟩)

lemma sampleReset_start (i : Fin 2) : ∃ newPassword, sampleReset.calls i = .start newPassword := by
  match i with
  | 0 => exact ⟨_, rfl⟩
  | 1 => exact ⟨_, rfl⟩

instance (g : ResetStore) (seen : ℕ) (pc : Pc) : Decidable (TimelyAt toyBackend g seen pc) :=
  match pc with
  | .idle (.setPassword password _) =>
      inferInstanceAs (Decidable (toyBackend.ldapSetPassword password = .ok true → g.changes = 0))
  | .hashed _ _ user hash _ =>
      inferInstanceAs (Decidable (g.password.user.passwordHash = user.passwordHash →
        g.password.user.passwordHash ≠ some hash → seen = 0))
  | .idle (.signIn _) | .checking _ _ _ _ | .committed _ | .changed _ | .inDirectory
  | .loaded _ _ | .verified _ _ | .upgrading _ _ _ | .outcome _ | .failed _ => .isTrue trivial

instance (w : Pool (Fin 2) ResetStore ResetCall) (pick : Pick (Fin 2) Draw ResetEvent) :
    Decidable (Timely toyBackend w pick) := by
  unfold Timely
  cases pick with
  | call i draw =>
      show Decidable (match w.calls i with
        | .setting pc seen => TimelyAt toyBackend w.shared seen pc
        | _ => True)
      cases w.calls i <;> infer_instance
  | env e => exact instDecidableTrue

/-- In turn the second call finds the link used. -/
theorem reset_link_once_inTurn : ∃ w,
    (resetCalls toyBackend onePassword (Fin 2)).machine.run sampleReset (resetTurns 0 7 ++ resetTurns 1 1) =
      some w ∧ w.calls 1 = .done (.error (.notFound "reset token")) ∧
    ∀ past rest t, resetTurns 0 7 ++ resetTurns 1 1 = past ++ rest →
      (resetCalls toyBackend onePassword (Fin 2)).machine.run sampleReset past = some t →
        t.shared.changes ≤ 1 := by
  have hany : ((resetCalls toyBackend onePassword (Fin 2)).machine.run sampleReset
      (resetTurns 0 7 ++ resetTurns 1 1)).any
        (fun w => w.calls 1 == .done (.error (.notFound "reset token"))) = true := by
    decide +kernel
  obtain ⟨w, hrun, hlast⟩ := Machine.exists_run_of_any hany
  refine ⟨w, hrun, beq_iff_eq.mp hlast, ?_⟩
  refine (reset_link_once_iff (by simp [toyBackend]) sampleReset_start rfl hrun).2.mpr ?_
  decide +kernel

/-- **The link works twice.**  The second call has taken the link when the first sets its password, and reads the
user after that: each sets its own. -/
theorem link_works_twice : ∃ w,
    (resetCalls toyBackend onePassword (Fin 2)).machine.run sampleReset
      (resetTurns 1 1 ++ resetTurns 0 4 ++ resetTurns 1 3) = some w ∧ w.shared.changes = 2 := by
  have hany : ((resetCalls toyBackend onePassword (Fin 2)).machine.run sampleReset
      (resetTurns 1 1 ++ resetTurns 0 4 ++ resetTurns 1 3)).any (fun w => w.shared.changes == 2) = true := by
    decide +kernel
  obtain ⟨w, hrun, htwo⟩ := Machine.exists_run_of_any hany
  exact ⟨w, hrun, beq_iff_eq.mp htwo⟩

end Ridm.Passwords
