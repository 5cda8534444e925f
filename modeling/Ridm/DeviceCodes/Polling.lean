import Ridm.DeviceCodes.Model
import Mathlib.Data.Fintype.Basic

/-!
# Polling a device code while it is decided

`poll`, `approve` and `deny` each read the record, change it and write it back whole.  Two things
can go wrong, and both do.

**A code handed out twice.**  A poll that came too soon writes back the record it read even when
that record is approved.  If the write lands after another poll's `GETDEL`, it creates the key
again, approval included, and the next poll takes it a second time: `approved_twice`.  With no
write-back after the record was taken (`StoresFound`), a code is approved at most once:
`approved_once`.

**A decision lost.**  A poll that read the record before the decision writes `Pending` over it:
`decision_lost`.  As long as no poll writes a pending record over a decision (`PendingFound`), a
decision stands: `decision_kept`.
-/

namespace Ridm.DeviceCodes

open Sessions (SsoSession)

/-! ## What a step does to the record -/

/-- The record the call's next step writes back. -/
def Pc.writes : Pc → Option DeviceRecord
  | .polling (.slowDown r) | .polling (.wait r) => some r
  | .deciding r v => some (r.decided v)
  | _ => none

/-- The calls of a schedule's start have not begun. -/
def Pc.isIdle : Pc → Bool
  | .idle _ => true
  | _ => false

/-- The stored record waits for a decision. -/
def Store.isPending (g : Store) : Bool := g.code.get.any fun r => r.status.isPending

variable {g g' : Store} {l l' : Pc}

/-- **The first step of a call** reads: it leaves the store alone, and what it does next depends
on the record it found. -/
lemma act_idle {c : Call} (h : act g (.idle c) = some (g', l')) : g' = g ∧
    ((∃ r, g.code.get = some r ∧ l' = .polled r) ∨ (∃ r a, l' = .approving r a) ∨
      (∃ r, l' = .deciding r .deny) ∨ (g.isPending = false ∧ l' = .returned .deny) ∨
      l' = .returned (.poll none) ∨ ∃ e, l' = .returned (.approve (.error e))) := by
  cases c with
  | poll clientId =>
      simp only [act] at h
      split at h
      · cases h; simp
      · rename_i r hget
        split_ifs at h
        · cases h; simp
        · cases h; simp [hget]
  | approve session acting scopes =>
      simp only [act] at h
      split at h
      · cases h; simp
      · split_ifs at h
        · cases h; simp
        · cases h; simp
  | deny =>
      simp only [act] at h
      split at h
      · rename_i hget
        cases h; simp [Store.isPending, hget]
      · rename_i r hget
        split_ifs at h with hr
        · cases h; simp
        · cases h; simpa [Store.isPending, hget] using hr

/-- **What a step does to the record**: nothing, a write-back, or its removal. -/
lemma act_code (h : act g l = some (g', l')) :
    g'.code = g.code ∨ (∃ r, l.writes = some r ∧ g'.code = g.code.setKeepTtl r) ∨
      g'.code = none := by
  cases l with
  | idle c => exact Or.inl (by rw [(act_idle h).1])
  | polled r => cases h; exact Or.inl rfl
  | polling c =>
      cases c with
      | expire => cases h; exact Or.inr (Or.inr rfl)
      | refuse => cases h; exact Or.inr (Or.inr rfl)
      | slowDown r => cases h; exact Or.inr (Or.inl ⟨r, rfl, rfl⟩)
      | wait r => cases h; exact Or.inr (Or.inl ⟨r, rfl, rfl⟩)
      | take r a =>
          simp only [act] at h
          split at h
          · cases h; exact Or.inl rfl
          · cases h; exact Or.inr (Or.inr rfl)
  | taken r a => cases h; exact Or.inl rfl
  | consuming r a => cases h; exact Or.inl rfl
  | approving r a =>
      simp only [act] at h
      split_ifs at h <;> (cases h; exact Or.inl rfl)
  | deciding r v => cases h; exact Or.inr (Or.inl ⟨_, rfl, rfl⟩)
  | recording r v => cases h; exact Or.inl rfl
  | returned a => cases h

lemma env_code {e : Env} (h : env g e = some g') : g'.code = g.code ∨ g'.code = none := by
  cases e with
  | tick d => cases h; exact Or.inl rfl
  | expire =>
      simp only [env, Option.map_eq_some_iff] at h
      obtain ⟨k, hexp, rfl⟩ := h
      exact Or.inr (Slot.expire_eq_some hexp).2

/-! ## Handed out once -/

section

variable {ι : Type}

/-- The call's `GETDEL` took the record: it returns `Approved`, or is about to. -/
def Pc.hasTaken : Pc → Bool
  | .taken .. | .consuming .. | .returned (.poll (some (.approved ..))) => true
  | _ => false

/-- **No write-back after the record was taken.**  Whenever a call writes the record back, its
key is still there, or no poll has taken it yet. -/
def StoresFound (w : Pool ι Store Pc) : Pick ι Unit Env → Prop
  | .call i _ => (w.calls i).writes.isSome = true →
      w.shared.code.isSome = true ∨ ∀ j, ¬ (w.calls j).hasTaken = true
  | .env _ => True

instance [Fintype ι] (w : Pool ι Store Pc) : ∀ a, Decidable (StoresFound w a)
  | .call _ _ => inferInstanceAs (Decidable (_ → _))
  | .env _ => .isTrue trivial

lemma act_taken (h : act g l = some (g', l')) (hl' : l'.hasTaken = true) :
    l.hasTaken = true ∨ g.code.isSome = true ∧ ¬ g'.code.isSome = true := by
  cases l with
  | idle c =>
      obtain ⟨-, ⟨r, -, rfl⟩ | ⟨r, a, rfl⟩ | ⟨r, rfl⟩ | ⟨-, rfl⟩ | rfl | ⟨e, rfl⟩⟩ := act_idle h <;>
        simp [Pc.hasTaken] at hl'
  | polled r => cases h; cases hl'
  | polling c =>
      cases c with
      | take r a =>
          simp only [act] at h
          split at h
          · cases h; cases hl'
          · rename_i r' hget
            cases h
            refine Or.inr ⟨?_, by simp [Slot.del]⟩
            cases hc : g.code with
            | none => rw [hc] at hget; cases hget
            | some e => rfl
      | _ => cases h; cases hl'
  | taken r a => exact Or.inl rfl
  | consuming r a => exact Or.inl rfl
  | approving r a =>
      simp only [act] at h
      split_ifs at h <;> (cases h; cases hl')
  | deciding r v => cases h; cases hl'
  | recording r v => cases v <;> (cases h; cases hl')
  | returned a => cases h

variable [DecidableEq ι] {w w₁ : Pool ι Store Pc} {as : List (Pick ι Unit Env)}

/-- Poll `i` returned `Approved`. -/
def Approved (w : Pool ι Store Pc) (i : ι) : Prop :=
  ∃ r a, w.calls i = .returned (.poll (some (.approved r a)))

/-- **A device code is approved at most once** in every schedule in which no call writes the
record back after a poll has taken it: of any number of concurrent polls, at most one returns
`Approved`. -/
theorem approved_once (hidle : ∀ i, (w.calls i).isIdle = true)
    (hmeets : (calls ι).machine.Meets StoresFound w as)
    (hrun : (calls ι).machine.run w as = some w₁) :
    ∀ i j, Approved w₁ i → Approved w₁ j → i = j := by
  have hunique := Calls.take_unique (P := calls ι) (C := StoresFound)
    (p := fun g => g.code.isSome = true) (t := fun l => l.hasTaken = true)
    ?_ ?_ ?_ hmeets hrun ?_
  · rintro i j ⟨r, a, hi⟩ ⟨r', a', hj⟩
    exact hunique i j (by rw [hi]; rfl) (by rw [hj]; rfl)
  · intro w i k g' l' hC hstep hpresent
    rcases act_code hstep with hsame | ⟨r, hwrites, -⟩ | hnone
    · exact Or.inl (by rw [← hsame]; exact hpresent)
    · exact hC (by rw [hwrites]; rfl)
    · rw [hnone] at hpresent
      cases hpresent
  · intro w i k g' l' _ hstep htook
    exact act_taken hstep htook
  · intro g e g' hstep hpresent
    rcases env_code hstep with hsame | hnone
    · rw [← hsame]
      exact hpresent
    · rw [hnone] at hpresent
      cases hpresent
  · intro i hi
    have hidle' := hidle i
    cases hc : w.calls i with
    | idle c => rw [hc] at hi; cases hi
    | _ => rw [hc] at hidle'; cases hidle'

end

/-! ## A decision stands -/

section

variable {ι : Type} {w w₁ w₂ : Pool ι Store Pc} {as bs : List (Pick ι Unit Env)}

/-- The call has stored its decision, or (a `deny`) found nothing to decide. -/
def Pc.hasDecided : Pc → Bool
  | .recording .. | .returned (.approve (.ok _)) | .returned .deny => true
  | _ => false

/-- **No pending record over a decision.**  Whenever a call writes back a pending record, the
stored one is still pending, or nothing has been decided yet. -/
def PendingFound (w : Pool ι Store Pc) : Pick ι Unit Env → Prop
  | .call i _ => ((w.calls i).writes.any fun r => r.status.isPending) = true →
      w.shared.isPending = true ∨ ∀ j, (w.calls j).hasDecided = false
  | .env _ => True

instance [Fintype ι] (w : Pool ι Store Pc) : ∀ a, Decidable (PendingFound w a)
  | .call _ _ => inferInstanceAs (Decidable (_ → _))
  | .env _ => .isTrue trivial

/-- The stored record, if any, is decided. -/
def Store.IsDecided (g : Store) : Prop := g.isPending = false

@[simp] lemma isPending_decided (r : DeviceRecord) (v : Verdict) :
    (r.decided v).status.isPending = false := by
  cases v <;> rfl

/-- **One step after the decision**: the record is still decided. -/
lemma step_decided {i j : ι} {k : Unit} (hC : PendingFound w (.call i k))
    (h : act w.shared (w.calls i) = some (g', l')) (hj : (w.calls j).hasDecided = true)
    (hdec : w.shared.IsDecided) : g'.IsDecided := by
  rcases act_code h with hsame | ⟨r, hwrites, hset⟩ | hnone
  · simpa [Store.IsDecided, Store.isPending, hsame] using hdec
  · by_cases hr : r.status.isPending = true
    · rcases hC (by simpa [hwrites] using hr) with hpend | hnobody
      · simp [Store.IsDecided, hpend] at hdec
      · simp [hnobody j] at hj
    · simpa [Store.IsDecided, Store.isPending, hset] using hr
  · simp [Store.IsDecided, Store.isPending, hnone]

lemma env_decided {e : Env} (h : env g e = some g') (hdec : g.IsDecided) : g'.IsDecided := by
  rcases env_code h with hsame | hnone
  · simpa [Store.IsDecided, Store.isPending, hsame] using hdec
  · simp [Store.IsDecided, Store.isPending, hnone]

lemma act_decided (h : act g l = some (g', l')) (hl' : l'.hasDecided = true) :
    l.hasDecided = true ∨ g'.IsDecided := by
  cases l with
  | idle c =>
      obtain ⟨rfl, ⟨r, -, rfl⟩ | ⟨r, a, rfl⟩ | ⟨r, rfl⟩ | ⟨hno, rfl⟩ | rfl | ⟨e, rfl⟩⟩ := act_idle h
      · simp [Pc.hasDecided] at hl'
      · simp [Pc.hasDecided] at hl'
      · simp [Pc.hasDecided] at hl'
      · exact Or.inr hno
      · simp [Pc.hasDecided] at hl'
      · simp [Pc.hasDecided] at hl'
  | polled r => cases h; cases hl'
  | polling c =>
      cases c with
      | take r a =>
          simp only [act] at h
          split at h <;> (cases h; cases hl')
      | _ => cases h; cases hl'
  | taken r a => cases h; cases hl'
  | consuming r a => cases h; cases hl'
  | approving r a =>
      simp only [act] at h
      split_ifs at h <;> (cases h; cases hl')
  | deciding r v =>
      cases h
      exact Or.inr (by simp [Store.IsDecided, Store.isPending])
  | recording r v => exact Or.inl rfl
  | returned a => cases h

lemma act_hasDecided (h : act g l = some (g', l')) (hl : l.hasDecided = true) :
    l'.hasDecided = true := by
  cases l with
  | recording r v => cases v <;> (cases h; rfl)
  | returned a => cases h
  | _ => cases hl

/-- The call has read a pending record, or answered as if it had. -/
def Pc.mayPend : Pc → Bool
  | .polled r => r.status.isPending
  | .polling (.wait _) | .returned (.poll (some .pending)) => true
  | _ => false

lemma pollDecide_decided {r : DeviceRecord} (hr : r.status.isPending = false) (now : Instant) :
    (Pc.polling (pollDecide r now)).mayPend = false := by
  simp only [pollDecide]
  split_ifs
  · rfl
  · rfl
  · cases hs : r.status with
    | pending => simp [hs, Status.isPending] at hr
    | approved a => rfl
    | denied => rfl

lemma act_mayPend (h : act g l = some (g', l')) (hdec : g.IsDecided) (hl : l.mayPend = false) :
    l'.mayPend = false := by
  cases l with
  | idle c =>
      obtain ⟨rfl, ⟨r, hget, rfl⟩ | ⟨r, a, rfl⟩ | ⟨r, rfl⟩ | ⟨-, rfl⟩ | rfl | ⟨e, rfl⟩⟩ := act_idle h
      · simpa [Store.IsDecided, Store.isPending, hget, Pc.mayPend] using hdec
      · rfl
      · rfl
      · rfl
      · rfl
      · rfl
  | polled r =>
      cases h
      exact pollDecide_decided hl _
  | polling c =>
      cases c with
      | take r a =>
          simp only [act] at h
          split at h <;> (cases h; rfl)
      | wait r => cases hl
      | _ => cases h; rfl
  | taken r a => cases h; rfl
  | consuming r a => cases h; rfl
  | approving r a =>
      simp only [act] at h
      split_ifs at h <;> (cases h; rfl)
  | deciding r v => cases h; rfl
  | recording r v => cases v <;> (cases h; rfl)
  | returned a => cases h

/-- A call of `poll`, wherever it stands. -/
def Pc.isPoll : Pc → Bool
  | .idle (.poll _) | .polled _ | .polling _ | .taken .. | .consuming .. | .returned (.poll _) =>
      true
  | _ => false

/-- The call returned a final answer to the device. -/
def Pc.isSettled : Pc → Bool
  | .returned (.poll (some (.approved ..))) | .returned (.poll (some .denied)) => true
  | _ => false

variable [DecidableEq ι]

/-- An `approve` or `deny` has returned successfully (at the end of `as`), nothing but polls
follows, the code has not expired, no poll has told the device the decision, and yet a poll that
started after the decision returned `Pending` (in the course of `bs`). -/
def LosesDecision (w : Pool ι Store Pc) (as bs : List (Pick ι Unit Env)) : Prop :=
  ∃ w₁ w₂ d q c r,
    (calls ι).machine.run w as = some w₁ ∧
    (w₁.calls d = .returned .deny ∨ ∃ r', w₁.calls d = .returned (.approve (.ok r'))) ∧
    w₁.calls q = .idle (.poll c) ∧
    (calls ι).machine.run w₁ bs = some w₂ ∧
    (∀ i k, .call i k ∈ bs → (w₁.calls i).isPoll = true) ∧
    w.shared.code.get = some r ∧ r.isExpired w₂.shared.now = false ∧
    (∀ i, (w₂.calls i).isSettled = false) ∧
    w₂.calls q = .returned (.poll (some .pending))

/-- **A decision is never lost** in every schedule in which no call writes a pending record back
once the decision is made, unless it still finds a pending one: a poll that starts after `approve`
or `deny` has returned does not return `Pending`. -/
theorem decision_kept (hidle : ∀ i, (w.calls i).isIdle = true)
    (hmeets : (calls ι).machine.Meets PendingFound w (as ++ bs)) : ¬ LosesDecision w as bs := by
  rintro ⟨w₁, w₂, d, q, c, r, hrun₁, hd, hq, hrun₂, -, -, -, -, hpend⟩
  obtain ⟨hmeets₁, hmeets₂⟩ := hmeets.of_append hrun₁
  have hdone : (w₁.calls d).hasDecided = true := by
    rcases hd with h | ⟨r', h⟩
    · rw [h]; rfl
    · rw [h]; rfl
  have hdec : w₁.shared.IsDecided := by
    refine Calls.once_marked (t := fun l => l.hasDecided = true) (K := Store.IsDecided)
      step_decided act_decided env_decided hmeets₁ hrun₁ ?_ d hdone
    intro i hi
    have hi' := hidle i
    cases hc : w.calls i <;> simp_all [Pc.isIdle, Pc.hasDecided]
  have hafter := Calls.after_mark (t := fun l => l.hasDecided = true) (K := Store.IsDecided)
    (J := fun l => l.mayPend = false) (q := q) step_decided act_hasDecided env_decided
    act_mayPend hmeets₂ hrun₂ hdone hdec (by rw [hq]; rfl)
  simp [hpend, Pc.mayPend] at hafter

end

/-! ## The schedules that go wrong -/

def polledOnce : DeviceRecord :=
  { issueRecord 1 2 3 "tv" ["openid"] [] "BCDFGHJK" (seconds 0) with
    lastPollAt := some (seconds 9) }

def userSession : SsoSession where
  id := 4
  tenantId := 2
  userId := 5
  authTime := seconds 0
  amr := ["pwd"]
  acr := none
  ip := none
  userAgent := none
  deviceId := none
  orgId := none
  impersonator := none
  createdAt := seconds 0
  lastSeenAt := seconds 0
  expiresAt := seconds 43200
  idleExpiresAt := seconds 1800

def pollRace : Pool (Fin 4) Store Pc where
  shared :=
    { now := seconds 10
      code := some ⟨polledOnce, some (seconds 600)⟩
      userKey := true
      row := .pending }
  calls
    | 3 => .idle (.approve userSession none ["openid"])
    | _ => .idle (.poll 3)

def steps (i : Fin 4) (n : ℕ) : List (Pick (Fin 4) Unit Env) := List.replicate n (.call i ())

def wait (secs : ℕ) : List (Pick (Fin 4) Unit Env) := [.env (.tick (secs * 1000000000))]

/-- **A device code approved twice.**  After the approval, poll 0 reads the record, too soon, and
stops before its write-back.  Poll 1 waits its interval and takes the record.  Poll 0's write-back
creates the key again, approval included; poll 2 takes that. -/
theorem approved_twice :
    (∀ i, (pollRace.calls i).isIdle = true) ∧
    ∃ w, (calls (Fin 4)).machine.run pollRace
        (steps 3 4 ++ steps 0 2 ++ wait 5 ++ steps 1 5 ++ steps 0 1 ++ wait 10 ++ steps 2 5) =
          some w ∧
      Approved w 1 ∧ Approved w 2 := by
  exact ⟨by decide, _, rfl, ⟨_, _, rfl⟩, ⟨_, _, rfl⟩⟩

def inTurn : List (Pick (Fin 4) Unit Env) :=
  steps 3 4 ++ steps 0 3 ++ wait 10 ++ steps 1 5 ++ steps 2 1

/-- In turn, only poll 1 is approved. -/
theorem approved_once_inTurn :
    ∃ w, (calls (Fin 4)).machine.run pollRace inTurn = some w ∧
      Approved w 1 ∧ ∀ i j, Approved w i → Approved w j → i = j := by
  refine ⟨_, rfl, ⟨_, _, rfl⟩, ?_⟩
  have hmeets : (calls (Fin 4)).machine.Meets StoresFound pollRace inTurn := by decide
  exact approved_once (by decide) hmeets rfl

/-- **A decision lost.**  Poll 0 reads the pending record; the user approves; poll 0's write-back
puts the pending record over the approval, and poll 2, which starts after all that, is told to
keep waiting. -/
theorem decision_lost : (∀ i, (pollRace.calls i).isIdle = true) ∧
    LosesDecision pollRace (wait 5 ++ steps 0 2 ++ steps 3 4) (steps 0 1 ++ wait 5 ++ steps 2 3) := by
  refine ⟨by decide, _, _, 3, 2, 3, polledOnce, rfl, Or.inr ⟨_, rfl⟩, rfl, rfl, ?_, rfl, ?_, ?_, rfl⟩
  · decide
  · decide
  · decide

/-- With the write-back of poll 0 before the decision, the decision stands. -/
theorem decision_kept_inTurn : ¬ LosesDecision pollRace (wait 5 ++ steps 0 3 ++ steps 3 4)
    (wait 5 ++ steps 2 5) :=
  decision_kept (by decide) (by decide)

end Ridm.DeviceCodes
