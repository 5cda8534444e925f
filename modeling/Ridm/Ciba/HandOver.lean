import Ridm.Ciba.Model
import Mathlib.Data.Fintype.Basic

/-!
# A request is handed over once

`poll` takes an approved record with `GETDEL`, but only asks whether there was one.  A poll that
read the record while it was pending writes it back after another poll's `GETDEL`, and a third one
that read the approval takes *that*: `handedOver_twice`.  When no call writes the record back after
it was taken (`StoresFound`), at most one poll returns `Approved`: `handedOver_once`.
-/

namespace Ridm.Ciba

/-! ## What a step does to the record -/

/-- The record the call's next step writes back. -/
def Pc.writes : Pc → Option CibaRecord
  | .polling (.keep r _) => some r
  | .deciding r approval => some (r.decided approval)
  | _ => none

/-- The calls of a schedule's start have not begun. -/
def Pc.isIdle : Pc → Bool
  | .idle _ => true
  | _ => false

variable {g g' : Store} {l l' : Pc} {k : Choice}

/-- **The first step of a poll** leaves the store alone: it goes on with the record it found, or
there is none of its client's. -/
lemma go_poll {clientId : Uuid} (h : go g (.idle (.poll clientId)) = some (g', l')) : g' = g ∧
    ((∃ r, g.request.get = some r ∧ l' = .polled r) ∨
      l' = .returned (.poll none) ∧ ∀ r, g.request.get = some r → r.clientId ≠ clientId) := by
  simp only [go] at h
  split at h
  · simp_all
  · split_ifs at h <;> simp_all

/-- **The first step of a call** leaves the store alone. -/
lemma go_idle {c : Call} (h : go g (.idle c) = some (g', l')) : g' = g ∧
    ((∃ r, g.request.get = some r ∧ l' = .polled r) ∨ l' = .returned (.poll none) ∨
      ∃ userId approval, c = .decide userId approval ∧ l' = .begun userId approval g.now) := by
  cases c with
  | poll clientId =>
      obtain ⟨hg, hr | ⟨hnone, -⟩⟩ := go_poll h
      · exact ⟨hg, Or.inl hr⟩
      · exact ⟨hg, Or.inr (Or.inl hnone)⟩
  | decide userId approval =>
      simp only [go, Option.some.injEq, Prod.mk.injEq] at h
      obtain ⟨rfl, rfl⟩ := h
      exact ⟨rfl, Or.inr (Or.inr ⟨_, _, rfl, rfl⟩)⟩

/-- **What a step does to the record**: nothing, a write-back, or its removal. -/
lemma act_request (h : act g l k = some (g', l')) :
    g'.request = g.request ∨
      (∃ r, l.writes = some r ∧ g'.request = g.request.setKeepTtl r) ∨ g'.request = none := by
  cases k with
  | rollBack =>
      simp only [act] at h
      split_ifs at h
      cases h
      exact Or.inl rfl
  | go =>
      simp only [act] at h
      cases l with
      | idle c => exact Or.inl (by rw [(go_idle h).1])
      | polled r => cases h; exact Or.inl rfl
      | polling c =>
          cases c with
          | expire => cases h; exact Or.inr (Or.inr rfl)
          | refuse => cases h; exact Or.inr (Or.inr rfl)
          | keep r soon => cases h; exact Or.inr (Or.inl ⟨r, rfl, rfl⟩)
          | take r a =>
              simp only [go] at h
              split at h
              · cases h; exact Or.inl rfl
              · cases h; exact Or.inr (Or.inr rfl)
      | consuming r a => cases h; exact Or.inl rfl
      | begun userId approval startedAt =>
          simp only [go] at h
          split_ifs at h <;> (cases h; exact Or.inl rfl)
      | rowLocked userId approval =>
          simp only [go] at h
          split at h
          · cases h; exact Or.inl rfl
          · split_ifs at h <;> (cases h; exact Or.inl rfl)
      | loaded r approval =>
          simp only [go] at h
          split_ifs at h <;> (cases h; exact Or.inl rfl)
      | deciding r approval => cases h; exact Or.inr (Or.inl ⟨_, rfl, rfl⟩)
      | committing r approval => cases h; exact Or.inl rfl
      | returned a => cases h
      | rolledBack => cases h

lemma env_request {e : Env} (h : env g e = some g') :
    g'.request = g.request ∨ g'.request = none := by
  cases e with
  | tick d => cases h; exact Or.inl rfl
  | expire =>
      simp only [env, Option.map_eq_some_iff] at h
      obtain ⟨k, hexp, rfl⟩ := h
      exact Or.inr (Slot.expire_eq_some hexp).2

/-! ## Handed over once -/

/-- The call's `GETDEL` took the record: it returns `Approved`, or is about to. -/
def Pc.hasTaken : Pc → Bool
  | .consuming .. | .returned (.poll (some (.approved ..))) => true
  | _ => false

lemma act_taken (h : act g l k = some (g', l')) (hl' : l'.hasTaken = true) :
    l.hasTaken = true ∨ g.request.isSome = true ∧ ¬ g'.request.isSome = true := by
  cases k with
  | rollBack =>
      simp only [act] at h
      split_ifs at h
      cases h
      cases hl'
  | go =>
      simp only [act] at h
      cases l with
      | idle c =>
          obtain ⟨-, ⟨r, -, rfl⟩ | rfl | ⟨userId, approval, -, rfl⟩⟩ := go_idle h <;>
            simp [Pc.hasTaken] at hl'
      | polled r => cases h; cases hl'
      | polling c =>
          cases c with
          | keep r soon => cases soon <;> (cases h; cases hl')
          | take r a =>
              simp only [go] at h
              split at h
              · cases h; cases hl'
              · rename_i r' hget
                cases h
                refine Or.inr ⟨?_, by simp [Slot.del]⟩
                cases hc : g.request with
                | none => simp [hc] at hget
                | some e => rfl
          | _ => cases h; cases hl'
      | consuming r a => exact Or.inl rfl
      | begun userId approval startedAt =>
          simp only [go] at h
          split_ifs at h <;> (cases h; cases hl')
      | rowLocked userId approval =>
          simp only [go] at h
          split at h
          · cases h; cases hl'
          · split_ifs at h <;> (cases h; cases hl')
      | loaded r approval =>
          simp only [go] at h
          split_ifs at h <;> (cases h; cases hl')
      | deciding r approval => cases h; cases hl'
      | committing r approval => cases h; cases hl'
      | returned a => cases h
      | rolledBack => cases h

section

variable {ι : Type}

/-- **No write-back after the record was taken.**  Whenever a call writes the record back, its
key is still there, or no poll has taken it yet. -/
def StoresFound (w : Pool ι Store Pc) : Pick ι Choice Env → Prop
  | .call i _ => (w.calls i).writes.isSome = true →
      w.shared.request.isSome = true ∨ ∀ j, ¬ (w.calls j).hasTaken = true
  | .env _ => True

instance [Fintype ι] (w : Pool ι Store Pc) : ∀ a, Decidable (StoresFound w a)
  | .call _ _ => inferInstanceAs (Decidable (_ → _))
  | .env _ => .isTrue trivial

/-- Poll `i` returned `Approved`. -/
def Approved (w : Pool ι Store Pc) (i : ι) : Prop :=
  ∃ r a, w.calls i = .returned (.poll (some (.approved r a)))

variable [DecidableEq ι] {w w₁ : Pool ι Store Pc} {as : List (Pick ι Choice Env)}

/-- **A request is handed over at most once** in every schedule in which no call writes the
record back after a poll has taken it: of any number of concurrent polls, at most one returns
`Approved`. -/
theorem handedOver_once (hidle : ∀ i, (w.calls i).isIdle = true)
    (hmeets : (calls ι).machine.Meets StoresFound w as)
    (hrun : (calls ι).machine.run w as = some w₁) :
    ∀ i j, Approved w₁ i → Approved w₁ j → i = j := by
  have hunique := Calls.take_unique (P := calls ι) (C := StoresFound)
    (p := fun g => g.request.isSome = true) (t := fun l => l.hasTaken = true)
    ?_ (fun _ => act_taken) ?_ hmeets hrun ?_
  · rintro i j ⟨r, a, hi⟩ ⟨r', a', hj⟩
    have hti : (w₁.calls i).hasTaken = true := by rw [hi]; rfl
    have htj : (w₁.calls j).hasTaken = true := by rw [hj]; rfl
    exact hunique i j hti htj
  · intro w i k g' l' hC hstep hthere
    rcases act_request hstep with hsame | ⟨r, hwrites, -⟩ | hnone
    · exact Or.inl (by rwa [← hsame])
    · exact hC (by simp [hwrites])
    · simp [hnone] at hthere
  · intro g e g' hstep hthere
    rcases env_request hstep with hsame | hnone
    · rwa [← hsame]
    · simp [hnone] at hthere
  · intro i hi
    have hi' := hidle i
    cases hc : w.calls i <;> simp_all [Pc.isIdle, Pc.hasTaken]

end

/-! ## The schedule that hands a request over twice -/

def request : CibaRecord :=
  startRecord 1 2 3 4 ["openid"] [] .poll "id" none DEFAULT_EXPIRY_SECS (seconds 0)

def approval : Approval where
  userId := 4
  sessionId := 5
  authTime := seconds 0
  amr := ["pwd"]
  acr := none
  orgId := none

def pollRace : Pool (Fin 4) Store Pc where
  shared :=
    { now := seconds 10
      request := some ⟨request, some (seconds 600)⟩
      row := ⟨4, seconds 600, .pending⟩
      locked := false }
  calls
    | 3 => .idle (.decide 4 (some approval))
    | _ => .idle (.poll 3)

def steps (i : Fin 4) (n : ℕ) : List (Pick (Fin 4) Choice Env) := List.replicate n (.call i .go)

/-- **A request handed over twice.**  Poll 0 reads the pending record and stops before its
write-back; the user approves; polls 1 and 2 both read the approval.  Poll 1 takes the record, poll
0 writes its own back, and poll 2 takes that. -/
theorem handedOver_twice :
    (∀ i, (pollRace.calls i).isIdle = true) ∧
    ∃ w, (calls (Fin 4)).machine.run pollRace
        (steps 0 2 ++ steps 3 6 ++ steps 1 2 ++ steps 2 2 ++ steps 1 2 ++ steps 0 1 ++ steps 2 2) =
          some w ∧
      Approved w 1 ∧ Approved w 2 :=
  ⟨by decide, _, rfl, ⟨_, _, rfl⟩, ⟨_, _, rfl⟩⟩

def inTurn : List (Pick (Fin 4) Choice Env) :=
  steps 0 3 ++ steps 3 6 ++ steps 1 2 ++ steps 2 2 ++ steps 1 2 ++ steps 2 1

/-- In turn, only poll 1 is approved. -/
theorem handedOver_once_inTurn :
    ∃ w, (calls (Fin 4)).machine.run pollRace inTurn = some w ∧
      Approved w 1 ∧ ∀ i j, Approved w i → Approved w j → i = j := by
  refine ⟨_, rfl, ⟨_, _, rfl⟩, ?_⟩
  have hmeets : (calls (Fin 4)).machine.Meets StoresFound pollRace inTurn := by decide
  exact handedOver_once (by decide) hmeets rfl

end Ridm.Ciba
