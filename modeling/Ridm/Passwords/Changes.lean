import Mathlib.Data.Fintype.Basic
import Ridm.Passwords.Model

/-!
# A password change is final

A sign-in that replaces a weak hash writes the hash of the password it has verified, with no regard to
the hash the row has by then.  Between its reading of the user and that `UPDATE` a password change may
have come and gone, and the old password is the user's password again (`old_password_back`).

`changes_are_final` holds of the schedules in which every such write is of the password last set
(`RehashesCurrent`): once `set_password` has committed, the stored hash is one of its password until
the next change.
-/

namespace Ridm.Passwords

section

variable {ι : Type} (B : Backend) {policy : PasswordPolicy}

/-- The write of a call, if it replaces a hash, is of the password last set. -/
def Store.Rehashes (g : Store) : Pc → Prop
  | .upgrading password _ _ => ∀ last ∈ g.changedTo, last = password
  | _ => True

instance (g : Store) : DecidablePred g.Rehashes := by
  intro l
  cases l <;> unfold Store.Rehashes <;> infer_instance

/-- **No sign-in overwrites a change**: every hash it replaces is of the password last set. -/
def RehashesCurrent (w : Pool ι Store Pc) : Pick ι ℕ ℕ → Prop
  | .call i _ => w.shared.Rehashes (w.calls i)
  | .env _ => True

instance (w : Pool ι Store Pc) : DecidablePred (RehashesCurrent w)
  | .call i _ => inferInstanceAs (Decidable (w.shared.Rehashes (w.calls i)))
  | .env _ => .isTrue trivial

/-- A sign-in between its reading of the user and its end. -/
def Pc.signingIn : Pc → Bool
  | .loaded .. | .verified .. | .upgrading .. => true
  | _ => false

/-- No change commits between a sign-in's reading of the user and its end. -/
def CommitsApart (policy : PasswordPolicy) (w : Pool ι Store Pc) : Pick ι ℕ ℕ → Prop
  | .call i salt => ∀ g password, act B policy w.shared salt (w.calls i) = some (g, .committed password) →
      ∀ j, (w.calls j).signingIn = false
  | .env _ => True

/-- No hash is one to replace when it has just been made. -/
def Backend.Fresh : Prop := ∀ p q salt v, B.verify p (B.hash q salt) = .ok v → v.needsRehash = false

/-- No call has begun. -/
def Pc.isIdle : Pc → Bool
  | .idle _ => true
  | _ => false

/-- `set_password` has committed. -/
def Pc.isDone : Pc → Bool
  | .committed _ | .changed _ => true
  | _ => false

/-- The stored hash is one of the password last set, and there is one once a change has returned. -/
structure Final (w : Pool ι Store Pc) : Prop where
  stored : ∀ password, w.shared.changedTo = some password →
    ∃ salt, w.shared.user.passwordHash = some (B.hash password salt)
  noted : ∀ i password, w.calls i = .changed password → w.shared.changedTo.isSome = true

/-- What a call is about to write is a hash of its password. -/
def Pc.Hashed : Pc → Prop
  | .hashed password _ _ hash _ | .upgrading password _ hash => ∃ salt, hash = B.hash password salt
  | _ => True

/-- What a sign-in has read is a hash of the password last set, and such a one it does not replace. -/
def Pc.Current (changedTo : Option String) : Pc → Prop
  | .loaded _ user => ∀ last ∈ changedTo, ∃ salt, user.passwordHash = some (B.hash last salt)
  | .verified .. | .upgrading .. => changedTo = none
  | _ => True

/-- **The invariant.** -/
structure Inv (w : Pool ι Store Pc) : Prop where
  stored : ∀ password, w.shared.changedTo = some password →
    ∃ salt, w.shared.user.passwordHash = some (B.hash password salt)
  noted : ∀ i, (w.calls i).isDone = true → w.shared.changedTo.isSome = true
  hashed : ∀ i, (w.calls i).Hashed B

variable {B}

lemma Inv.final {w : Pool ι Store Pc} (h : Inv B w) : Final B w :=
  ⟨h.stored, fun i password hi => h.noted i (by rw [hi]; rfl)⟩

variable {a : Pick ι ℕ ℕ} {g g' : Store} {salt : ℕ} {l' : Pc} {l : Pc}

lemma commitPassword_ok {password hash : String} {opts : SetPasswordOptions}
    {user : User} {expiresAt : Option Instant}
    (h : commitPassword B policy g password opts user hash expiresAt = .ok g') :
    g'.user.passwordHash = some hash ∧ g'.changedTo = some password := by
  simp only [commitPassword, bind_eq_ok] at h
  obtain ⟨_, _, h⟩ := h
  cases h
  exact ⟨rfl, rfl⟩

lemma verifyLoaded_quiet (B : Backend) (policy : PasswordPolicy) (password : String) (user : User)
    (now : Instant) (changedTo : Option String) :
    (verifyLoaded B policy password user now).isDone = false ∧
      (verifyLoaded B policy password user now).Hashed B ∧
      (B.Fresh → (Pc.loaded password user).Current B changedTo →
        (verifyLoaded B policy password user now).Current B changedTo) := by
  unfold verifyLoaded
  split
  · split <;> exact ⟨rfl, trivial, fun _ _ => trivial⟩
  · next stored hstored =>
      split
      · exact ⟨rfl, trivial, fun _ _ => trivial⟩
      · exact ⟨rfl, trivial, fun _ _ => trivial⟩
      · next v hv =>
          split_ifs with _ hrehash
          · exact ⟨rfl, trivial, fun _ _ => trivial⟩
          · refine ⟨rfl, trivial, fun hfresh hread => Option.eq_none_iff_forall_not_mem.mpr ?_⟩
            -- a hash of the password last set would not be replaced
            intro last hlast
            obtain ⟨salt, hsalt⟩ := hread last hlast
            rw [hstored, Option.some.injEq] at hsalt
            rw [hfresh _ _ _ _ (hsalt ▸ hv)] at hrehash
            cases hrehash
          · exact ⟨rfl, trivial, fun _ _ => trivial⟩

lemma Pc.Current.rehashes {g : Store} (h : l.Current B g.changedTo) : g.Rehashes l := by
  cases l with
  | upgrading password user hash =>
      intro last hlast
      rw [show g.changedTo = none from h] at hlast
      cases hlast
  | _ => trivial

lemma Pc.Current.quiet (h : l.signingIn = false) (changedTo : Option String) :
    l.Current B changedTo := by
  cases l <;> trivial

/-- **What a step does**: it leaves the row alone, or sets the password, or replaces the hash. -/
lemma act_cases {l l' : Pc} (h : act B policy g salt l = some (g', l')) :
    (g' = g ∧ (l'.isDone = true → l.isDone = true) ∧ l'.Hashed B ∧
      (B.Fresh → (∀ password, g.changedTo = some password →
          ∃ salt, g.user.passwordHash = some (B.hash password salt)) →
        l.Current B g.changedTo → l'.Current B g.changedTo)) ∨
    (∃ password opts user hash expiresAt, l = .hashed password opts user hash expiresAt ∧
      g'.user.passwordHash = some hash ∧ g'.changedTo = some password ∧ l' = .committed password) ∨
    ∃ password user hash o, l = .upgrading password user hash ∧
      g'.user.passwordHash = some hash ∧ g'.changedTo = g.changedTo ∧ l' = .outcome o := by
  cases l with
  | idle op =>
      left
      cases op with
      | setPassword password opts =>
          simp only [act] at h
          split at h <;> cases h <;> exact ⟨rfl, nofun, trivial, fun _ _ _ => trivial⟩
      | signIn password =>
          cases h
          exact ⟨rfl, nofun, trivial, fun _ hstored _ => hstored⟩
  | checking password opts user history =>
      left
      simp only [act] at h
      split at h
      · cases h
        exact ⟨rfl, nofun, ⟨salt, rfl⟩, fun _ _ hl => hl⟩
      · cases h
        exact ⟨rfl, nofun, trivial, fun _ _ _ => trivial⟩
  | hashed password opts user hash expiresAt =>
      simp only [act] at h
      split at h
      · next g'' hcommit =>
          cases h
          obtain ⟨hhash, hpassword⟩ := commitPassword_ok hcommit
          exact .inr (.inl ⟨password, opts, user, hash, expiresAt, rfl, hhash, hpassword, rfl⟩)
      · cases h
        exact .inl ⟨rfl, nofun, trivial, fun _ _ _ => trivial⟩
  | committed password =>
      cases h
      exact .inl ⟨rfl, fun _ => rfl, trivial, fun _ _ _ => trivial⟩
  | loaded password user =>
      cases h
      obtain ⟨hdone, hhashed, hcurrent⟩ :=
        verifyLoaded_quiet B policy password user g.now g.changedTo
      exact .inl ⟨rfl, by simp [hdone], hhashed, fun hfresh _ => hcurrent hfresh⟩
  | verified password user =>
      cases h
      exact .inl ⟨rfl, nofun, ⟨salt, rfl⟩, fun _ _ hl => hl⟩
  | upgrading password user hash =>
      cases h
      exact .inr (.inr ⟨password, user, hash, _, rfl, rfl, rfl, rfl⟩)
  | _ => cases h

variable [DecidableEq ι] {w w' : Pool ι Store Pc} {i : ι} {as : List (Pick ι ℕ ℕ)}

lemma Inv.calls_next {g' : Store} (h : Inv B w) (hhashed : l'.Hashed B)
    (hnoted : ∀ j, ((w.next i g' l').calls j).isDone = true → g'.changedTo.isSome = true)
    (hstored : ∀ password, g'.changedTo = some password →
      ∃ salt, g'.user.passwordHash = some (B.hash password salt)) : Inv B (w.next i g' l') :=
  ⟨hstored, hnoted, Pool.next_forall (p := fun _ => Pc.Hashed B) hhashed fun j _ => h.hashed j⟩

/-- **A step** keeps the invariant, when a hash it replaces is of the password last set. -/
lemma Inv.step {g' : Store} (h : Inv B w)
    (hC : w.shared.Rehashes (w.calls i)) (hstep : act B policy w.shared salt (w.calls i) = some (g', l')) :
    Inv B (w.next i g' l') := by
  have hi := h.hashed i
  rcases act_cases hstep with ⟨rfl, hdone, hhashed, -⟩ |
    ⟨password, opts, user, hash, expiresAt, hl, hhash, hset, rfl⟩ |
    ⟨password, user, hash, o, hl, hhash, hset, rfl⟩
  · refine h.calls_next hhashed ?_ h.stored
    intro j hj
    rcases Pool.next_read hj with ⟨-, hself⟩ | hold
    · exact h.noted i (hdone hself)
    · exact h.noted j hold
  · -- the change: its hash is of its password
    rw [hl] at hi
    obtain ⟨salt', rfl⟩ := hi
    refine h.calls_next trivial (fun _ _ => by rw [hset]; rfl) ?_
    intro last hlast
    rw [hset, Option.some.injEq] at hlast
    exact ⟨salt', hlast ▸ hhash⟩
  · -- the replacement: its hash is of the password last set
    rw [hl] at hi hC
    obtain ⟨salt', rfl⟩ := hi
    refine h.calls_next trivial ?_ ?_
    · intro j hj
      rw [hset]
      rcases Pool.next_read hj with ⟨-, hself⟩ | hold
      · cases hself
      · exact h.noted j hold
    · intro last hlast
      rw [hset] at hlast
      obtain rfl := hC last hlast
      exact ⟨salt', hhash⟩

lemma Inv.machine_step (h : Inv B w) (hC : RehashesCurrent w a)
    (hstep : (calls B policy ι).machine.step w a = some w') : Inv B w' := by
  cases a with
  | call i salt =>
      obtain ⟨g, l, hact, rfl⟩ := Calls.step_call.mp hstep
      exact h.step hC hact
  | env d =>
      cases hstep
      exact ⟨h.stored, h.noted, h.hashed⟩

/-- The invariant while no change commits during a sign-in. -/
structure ApartInv (B : Backend) (w : Pool ι Store Pc) : Prop extends Inv B w where
  current : ∀ i, (w.calls i).Current B w.shared.changedTo

omit [DecidableEq ι] in
lemma ApartInv.rehashesCurrent (h : ApartInv B w) (a : Pick ι ℕ ℕ) : RehashesCurrent w a := by
  cases a with
  | call i salt => exact (h.current i).rehashes
  | env d => trivial

lemma ApartInv.machine_step (hfresh : B.Fresh) (h : ApartInv B w)
    (hC : CommitsApart B policy w a) (hstep : (calls B policy ι).machine.step w a = some w') :
    ApartInv B w' := by
  refine ⟨h.toInv.machine_step (h.rehashesCurrent a) hstep, ?_⟩
  cases a with
  | env d =>
      cases hstep
      exact h.current
  | call i salt =>
      obtain ⟨g, l, hact, rfl⟩ := Calls.step_call.mp hstep
      rcases act_cases hact with ⟨rfl, -, -, hl⟩ | ⟨password, _, _, _, _, -, -, -, rfl⟩ |
        ⟨_, _, _, _, -, -, hset, rfl⟩
      · exact Pool.next_forall (p := fun _ => Pc.Current B _) (hl hfresh h.stored (h.current i))
          fun j _ => h.current j
      · exact Pool.next_forall (p := fun _ => Pc.Current B g.changedTo) trivial
          fun j _ => .quiet (hC g password hact j) _
      · exact Pool.next_forall (p := fun _ => Pc.Current B g.changedTo) trivial
          fun j _ => hset ▸ h.current j

omit [DecidableEq ι] in
lemma ApartInv.of_idle (hidle : ∀ i, (w.calls i).isIdle = true) (hnew : w.shared.changedTo = none) :
    ApartInv B w := by
  have hnone : ∀ i, (w.calls i).isDone = false ∧ (w.calls i).Hashed B ∧
      (w.calls i).signingIn = false := by
    intro i
    have hi := hidle i
    cases hl : w.calls i with
    | idle op => exact ⟨rfl, trivial, rfl⟩
    | _ =>
        rw [hl] at hi
        cases hi
  refine ⟨⟨?_, ?_, fun i => (hnone i).2.1⟩, fun i => .quiet (hnone i).2.2 _⟩
  · intro password hpassword
    rw [hnew] at hpassword
    cases hpassword
  · intro i hi
    rw [(hnone i).1] at hi
    cases hi

/-- **A password change is final**, in every schedule of any number of changes and sign-ins in which no
sign-in replaces a hash with one of another password than the one last set: so in those in which no
change commits between a sign-in's reading of the user and its end. -/
theorem changes_are_final (hidle : ∀ i, (w.calls i).isIdle = true) (hnew : w.shared.changedTo = none)
    (hrun : (calls B policy ι).machine.run w as = some w') :
    ((calls B policy ι).machine.Meets RehashesCurrent w as → Final B w') ∧
    (B.Fresh → (calls B policy ι).machine.Meets (CommitsApart B policy) w as →
      (calls B policy ι).machine.Meets RehashesCurrent w as) := by
  have hinv : ApartInv B w := .of_idle hidle hnew
  constructor
  · intro hmeets
    exact (Machine.run_inv (I := Inv B) (fun h => h.machine_step) hmeets hrun hinv.toInv).final
  · intro hfresh hapart
    exact Machine.Meets.imp (fun h => h.machine_step hfresh) (fun h _ => h.rehashesCurrent _) hapart hinv

end

/-! ## The schedule that goes wrong -/

def toyBackend : Backend where
  hash password salt := String.ofList ('a' :: password.toList ++ List.replicate salt '.')
  algorithm := "argon2id"
  verify password stored :=
    .ok ⟨(stored.toList.drop 1).takeWhile (· ≠ '.') = password.toList, stored.toList.head? ≠ some 'a'⟩
  ldapSetPassword _ := .ok false
  ldapVerifyPassword _ := .ok none
  checkPolicy _ _ := []
  checkBreached _ := .ok ()

def onePassword : PasswordPolicy := ⟨1, false, none⟩

def importedUser : Pool (Fin 2) Store Pc where
  shared :=
    { now := seconds 0
      user := ⟨some "bold", some "bcrypt", false, none, none⟩
      history := []
      changedTo := none }
  calls
    | 0 => .idle (.signIn "old")
    | 1 => .idle (.setPassword "new" ⟨false, false⟩)

def turns (i : Fin 2) (n : ℕ) : List (Pick (Fin 2) ℕ ℕ) := List.replicate n (.call i 1)

/-- **The old password is back.**  The sign-in has read the user, verified the password and hashed it
when the change comes and returns; then it writes its hash. -/
theorem old_password_back :
    (∀ i, (importedUser.calls i).isIdle = true) ∧ importedUser.shared.changedTo = none ∧
    ∃ w, (calls toyBackend onePassword (Fin 2)).machine.run importedUser
        (turns 0 3 ++ turns 1 4 ++ turns 0 1) = some w ∧
      w.calls 1 = .changed "new" ∧ w.shared.user.passwordHash = some (toyBackend.hash "old" 1) ∧
      ¬ Final toyBackend w := by
  refine ⟨by decide, rfl, _, rfl, rfl, rfl, fun h => ?_⟩
  obtain ⟨salt, hsalt⟩ := h.stored "new" rfl
  have hchars := congrArg String.toList (Option.some.inj hsalt)
  rw [toyBackend, String.toList_ofList, String.toList_ofList] at hchars
  exact absurd (congrArg (List.take 2) hchars) (by simp)

/-- With the sign-in before the change, the stored hash is first one of `old` and then one of `new`. -/
theorem changes_are_final_inTurn :
    ∃ w, (calls toyBackend onePassword (Fin 2)).machine.run importedUser
        (turns 0 4 ++ turns 1 4) = some w ∧
      w.calls 0 = .outcome (.valid false) ∧ w.calls 1 = .changed "new" ∧
      w.shared.user.passwordHash = some (toyBackend.hash "new" 1) ∧ Final toyBackend w := by
  refine ⟨_, rfl, rfl, rfl, rfl, ?_⟩
  have hmeets : (calls toyBackend onePassword (Fin 2)).machine.Meets RehashesCurrent importedUser
      (turns 0 4 ++ turns 1 4) := by decide
  exact (changes_are_final (by decide) rfl rfl).1 hmeets

end Ridm.Passwords
