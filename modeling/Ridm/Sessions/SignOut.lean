import Ridm.Sessions.Model
import Mathlib.Data.Fintype.Basic

/-!
# When a sign-out is final

`revoke` deletes the session's key, but every other operation writes the whole value back with
`PSETEX`, which creates the key when it is missing.  A request that loaded the session before
the sign-out and writes it back after it brings the session back: `signedOut_comes_back` is such
a schedule.

What is needed for a sign-out to be final is one thing: no write-back lands after a `revoke` has
deleted the key (`WritesFound`).  `revoked_stays_gone` says that the key is then gone for good,
and `signOut_final` that no `get` started after `revoke` returned gives the session.
-/

namespace Ridm.Sessions

/-! ## The places of a call that matter -/

/-- The call's next step is the `PSETEX` of a `store`. -/
def Pc.isWriting : Pc → Bool
  | .writing .. => true
  | _ => false

/-- A `revoke` that has deleted the key. -/
def Pc.hasEnded : Pc → Bool
  | .ending _ | .marked _ | .untracked _ | .revoked _ => true
  | _ => false

/-- A request that holds a session its `get` returned. -/
def Pc.isServed : Pc → Bool
  | .holding .. => true
  | .storing _ (.touched ..) => true
  | .writing _ _ (.touched ..) => true
  | .mirroring _ _ served _ => served
  | _ => false

/-- The calls of a schedule's start have not begun. -/
def Pc.isIdle : Pc → Bool
  | .idle _ => true
  | _ => false

lemma hasEnded_afterStore (s : SsoSession) (t : Then) : (afterStore s t).hasEnded = false := by
  cases t with
  | slid mirror ops => cases mirror <;> rfl
  | touched m ops => rfl

lemma hasEnded_beginOp (now : Instant) (s : SsoSession) (ops : List Op) (op : Op) :
    (beginOp now s ops op).hasEnded = false := by
  cases op with
  | refreshAuth amr acr => rfl
  | bindOrganization org =>
      simp only [beginOp]
      split_ifs <;> rfl
  | bindDevice d => rfl

variable {g g' : Store} {l l' : Pc}

/-- **What a step does to the key.**  It is a `PSETEX`; or the `GETDEL` of a `revoke`; or it
leaves the key alone, and the call is past such a `GETDEL` exactly if it was before. -/
lemma act_cases (h : act g l = some (g', l')) :
    (l.isWriting = true ∧ l'.hasEnded = false) ∨
    (g'.key = none ∧ l'.hasEnded = true) ∨
    (g'.key = g.key ∧ l'.hasEnded = l.hasEnded) := by
  cases l with
  | idle c =>
      cases c with
      | request policy ops =>
          simp only [act] at h
          split at h <;> (cases h; exact Or.inr (Or.inr ⟨rfl, rfl⟩))
      | opened s ops => cases h; exact Or.inr (Or.inr ⟨rfl, rfl⟩)
      | revoke => cases h; exact Or.inr (Or.inl ⟨rfl, rfl⟩)
  | got policy s ops =>
      simp only [act] at h
      split_ifs at h <;> (cases h; exact Or.inr (Or.inr ⟨rfl, rfl⟩))
  | storing s t =>
      simp only [act] at h
      split_ifs at h <;> cases h
      · exact Or.inr (Or.inr ⟨rfl, hasEnded_afterStore s t⟩)
      · exact Or.inr (Or.inr ⟨rfl, rfl⟩)
  | writing s ttlMs t => cases h; exact Or.inl ⟨rfl, hasEnded_afterStore s t⟩
  | mirroring s m served ops => cases h; exact Or.inr (Or.inr ⟨rfl, rfl⟩)
  | holding s ops =>
      cases ops with
      | nil => cases h
      | cons op ops => cases h; exact Or.inr (Or.inr ⟨rfl, hasEnded_beginOp _ s ops op⟩)
  | absent => cases h
  | ending raw => cases h; exact Or.inr (Or.inr ⟨rfl, rfl⟩)
  | marked raw => cases h; exact Or.inr (Or.inr ⟨rfl, rfl⟩)
  | untracked live => cases h; exact Or.inr (Or.inr ⟨rfl, rfl⟩)
  | revoked live => cases h

lemma env_key {e : Env} (h : env g e = some g') (hk : g.key = none) : g'.key = none := by
  cases e with
  | tick d =>
      simp only [env, Option.some.injEq] at h
      rw [← h]
      exact hk
  | expire =>
      simp only [env, Option.map_eq_some_iff] at h
      obtain ⟨k, hexp, rfl⟩ := h
      exact (Slot.expire_eq_some hexp).2

/-! ## The condition, and what it gives -/

section

variable {ι : Type}

/-- **No write-back after the deletion.**  Whenever a `store` sends its `PSETEX`, the key is
still there, or no `revoke` has deleted it yet. -/
def WritesFound (w : Pool ι Store Pc) : Pick ι Unit Env → Prop
  | .call i _ => (w.calls i).isWriting = true →
      w.shared.key.isSome = true ∨ ∀ j, (w.calls j).hasEnded = false
  | .env _ => True

instance [Fintype ι] (w : Pool ι Store Pc) : ∀ a, Decidable (WritesFound w a)
  | .call _ _ => inferInstanceAs (Decidable (_ → _))
  | .env _ => .isTrue trivial

variable {w w₁ w₂ : Pool ι Store Pc} {as bs : List (Pick ι Unit Env)}

lemma act_hasEnded (h : act g l = some (g', l')) (hl : l.hasEnded = true) :
    l'.hasEnded = true := by
  rcases act_cases h with ⟨hwrite, -⟩ | ⟨-, hended⟩ | ⟨-, hended⟩
  · cases l <;> simp_all [Pc.isWriting, Pc.hasEnded]
  · exact hended
  · rw [hended, hl]

/-- **One step after the deletion**: the key is still missing. -/
lemma step_gone {i j : ι} {k : Unit} (hC : WritesFound w (.call i k))
    (h : act w.shared (w.calls i) = some (g', l')) (hj : (w.calls j).hasEnded = true)
    (hkey : w.shared.key = none) : g'.key = none := by
  rcases act_cases h with ⟨hwrite, -⟩ | ⟨hnone, -⟩ | ⟨hsame, -⟩
  · rcases hC hwrite with hsome | hnobody
    · simp [hkey] at hsome
    · simp [hnobody j] at hj
  · exact hnone
  · rw [hsame, hkey]

variable [DecidableEq ι]

/-- **Deleted, and gone for good.**  In every schedule without a write-back after the deletion,
once a `revoke` has deleted the key it is missing. -/
theorem revoked_stays_gone (hmeets : (calls ι).machine.Meets WritesFound w as)
    (hrun : (calls ι).machine.run w as = some w₁) (hidle : ∀ i, (w.calls i).isIdle = true) :
    ∀ j, (w₁.calls j).hasEnded = true → w₁.shared.key = none := by
  refine Calls.once_marked (t := fun l => l.hasEnded = true) (K := fun g => g.key = none)
    step_gone ?_ env_key hmeets hrun ?_
  · intro i g l k g' l' hstep hended
    rcases act_cases hstep with ⟨-, hnot⟩ | ⟨hnone, -⟩ | ⟨-, hsame⟩
    · simp [hnot] at hended
    · exact Or.inr hnone
    · exact Or.inl (by rw [← hsame, hended])
  · intro i hended
    have hi := hidle i
    cases hc : w.calls i <;> simp_all [Pc.isIdle, Pc.hasEnded]

lemma request_finds_nothing {r q : ι} {policy : SessionPolicy} {ops : List Op}
    (hmeets : (calls ι).machine.Meets WritesFound w₁ bs)
    (hrun : (calls ι).machine.run w₁ bs = some w₂) (hr : (w₁.calls r).hasEnded = true)
    (hkey : w₁.shared.key = none) (hq : w₁.calls q = .idle (.request policy ops)) :
    w₂.calls q = .idle (.request policy ops) ∨ w₂.calls q = .absent := by
  refine (Calls.after_mark (t := fun l => l.hasEnded = true) (K := fun g => g.key = none)
    (J := fun l => l = .idle (.request policy ops) ∨ l = .absent)
    step_gone act_hasEnded env_key ?_ hmeets hrun hr hkey (Or.inl hq)).2
  rintro i g l k g' l' hstep hkey (rfl | rfl)
  · simp only [calls, act, hkey, Slot.get_none, Option.some.injEq, Prod.mk.injEq] at hstep
    exact Or.inr hstep.2.symm
  · simp [calls, act] at hstep

/-! ## Sign-out -/

/-- A `get` that starts after a `revoke` has returned (at the end of `as`) returns the session
(in the course of `bs`). -/
def ComesBack (w : Pool ι Store Pc) (as bs : List (Pick ι Unit Env)) : Prop :=
  ∃ w₁ w₂ r live q policy ops,
    (calls ι).machine.run w as = some w₁ ∧ w₁.calls r = .revoked live ∧
    w₁.calls q = .idle (.request policy ops) ∧
    (calls ι).machine.run w₁ bs = some w₂ ∧ (w₂.calls q).isServed = true

/-- **Sign-out is final** in every schedule in which no write-back lands after a `revoke` has
deleted the key: whatever requests run beside it, a `get` that starts after `revoke` returned
does not return the session. -/
theorem signOut_final (hidle : ∀ i, (w.calls i).isIdle = true)
    (hmeets : (calls ι).machine.Meets WritesFound w (as ++ bs)) : ¬ ComesBack w as bs := by
  rintro ⟨w₁, w₂, r, live, q, policy, ops, hrun₁, hr, hq, hrun₂, hserved⟩
  obtain ⟨hmeets₁, hmeets₂⟩ := hmeets.of_append hrun₁
  have hout : (w₁.calls r).hasEnded = true := by rw [hr]; rfl
  have hkey := revoked_stays_gone hmeets₁ hrun₁ hidle r hout
  rcases request_finds_nothing hmeets₂ hrun₂ hout hkey hq with h | h
  · simp [h, Pc.isServed] at hserved
  · simp [h, Pc.isServed] at hserved

end

/-! ## The schedule that brings a session back -/

def lastMinute : SsoSession where
  id := 1
  tenantId := 2
  userId := 3
  authTime := seconds 0
  amr := ["pwd"]
  acr := none
  ip := none
  userAgent := none
  deviceId := none
  orgId := none
  impersonator := none
  createdAt := seconds 0
  lastSeenAt := seconds 10
  expiresAt := seconds 43200
  idleExpiresAt := seconds 1810

def signOutRace : Pool (Fin 3) Store Pc where
  shared :=
    { now := seconds 100
      key := some ⟨lastMinute, some (seconds 1810)⟩
      row :=
        { authTime := seconds 0, amr := ["pwd"], acr := none, deviceId := none, orgId := none
          lastSeenAt := seconds 10, idleExpiresAt := seconds 1810, revokedAt := none }
      tracked := true
      tokensRevoked := false }
  calls
    | 0 => .idle (.request ⟨1800⟩ [])
    | 1 => .idle .revoke
    | 2 => .idle (.request ⟨1800⟩ [])

def steps (i : Fin 3) (n : ℕ) : List (Pick (Fin 3) Unit Env) := List.replicate n (.call i ())

/-- **A signed-out session comes back.**  The first request loads the session and stops before
its `PSETEX`; `revoke` runs to its end; the `PSETEX` then creates the key again, and a request
that starts only now gets the session. -/
theorem signedOut_comes_back : (∀ i, (signOutRace.calls i).isIdle = true) ∧
    ComesBack signOutRace (steps 0 3 ++ steps 1 4) (steps 0 1 ++ steps 2 2) := by
  refine ⟨by decide, _, _, 1, true, 2, ⟨1800⟩, [], rfl, rfl, rfl, rfl, rfl⟩

/-- With the same calls, a slide that is over before the sign-out does no harm. -/
theorem signOut_final_slideFirst :
    ¬ ComesBack signOutRace (steps 0 4 ++ steps 1 4) (steps 2 1) :=
  signOut_final (by decide) (by decide)

end Ridm.Sessions
