import Ridm.Core.Valkey
import Ridm.Login.Steps

/-!
# One flow, and the requests that write it

`Ridm.Login.Flows` takes a request as one step.  Here it is what it sends to Valkey: `load` reads the flow,
the request checks what it was given, and `save` writes the whole flow back, or `delete` removes it
(`mfa_reject`, `pass_second_factor`, `password_step` and the steps like it in
`api/src/services/flows.rs`; `save`, `get` and `delete` of `api/src/services/login_flows.rs`).

What a credential is worth is settled by the schedule, and so is what a step that passes makes of the flow,
within what `advance` can do (`Onward`).
-/

namespace Ridm.Login

/-- No first factor has passed at these stages. -/
def FlowStage.isFirst : FlowStage → Bool
  | .authenticate | .register | .verifyEmail => true
  | _ => false

/-- Where `advance` can lead: past the first factor, and to the second one only if none has passed. -/
def Onward (flow : LoginFlow) : Prop :=
  flow.stage.isFirst = false ∧ (flow.stage = .mfa → "mfa" ∉ flow.amr)

instance (flow : LoginFlow) : Decidable (Onward flow) := inferInstanceAs (Decidable (_ ∧ _))

/-- **`advance` leads on**, once a first factor has passed. -/
theorem onward_of_advance {T : Tenant} {g g' : Store} {f f' : LoginFlow} {must : Bool}
    (hin : f.userId ≠ none ∧ f.sessionId ≠ none) (h : advance T g f must = .ok (g', f')) : Onward f' := by
  have hspec := advance_spec h
  constructor
  · cases hstage : f'.stage with
    | authenticate => exact absurd (hspec.start hstage) (not_or.mpr hin)
    | register => exact absurd hstage hspec.stage.1
    | verifyEmail => exact absurd hstage hspec.stage.2
    | _ => rfl
  · intro hstage hmem
    obtain ⟨i, u, -, -, hmfa⟩ := hspec.mfa hstage
    rw [hspec.same.amr] at hmem
    simp [mfaRequired, hmem] at hmfa

namespace Attempts

/-- The kinds of request on a flow. -/
inductive Request
  | firstFactor
  /-- What a refusal is not counted for: to register, to accept an invitation, to come from a provider, or
  to open the link that verifies the address. -/
  | registration
  | secondFactor
  | later
  deriving DecidableEq

/-- The stages a request is for. -/
def Request.isAt : Request → FlowStage → Bool
  | .firstFactor, stage => stage == .authenticate
  | .registration, stage => stage.isFirst
  | .secondFactor, stage => stage == .mfa
  | .later, stage => !stage.isFirst && stage != .mfa

/-- `flow` can be what a request makes of `old` when it passes. -/
def Request.Passes (old flow : LoginFlow) : Request → Prop
  | .firstFactor => Onward flow ∧ flow.attempts = old.attempts ∧ flow.expiresAt = old.expiresAt
  | .registration => (Onward flow ∨ flow.stage = .verifyEmail) ∧ flow.attempts = old.attempts ∧
      flow.expiresAt = old.expiresAt
  | .secondFactor =>
      Onward flow ∧ "mfa" ∈ flow.amr ∧ flow.attempts = 0 ∧ flow.expiresAt = old.expiresAt
  | .later =>
      Onward flow ∧ flow.amr = old.amr ∧ flow.attempts = old.attempts ∧ flow.expiresAt = old.expiresAt

instance (old flow : LoginFlow) : DecidablePred (Request.Passes old flow) := by
  intro r
  cases r <;> unfold Request.Passes <;> infer_instance

/-- Where a request stands. -/
inductive Pc
  | idle (request : Request)
  | loaded (request : Request) (flow : LoginFlow)
  | passing (flow : LoginFlow)
  /-- A credential was wrong, and the flow, here as it was loaded, is to count it. -/
  | failing (request : Request) (flow : LoginFlow)
  | passed
  | rejected (request : Request) (flow : LoginFlow)
  | refused
  deriving DecidableEq

/-- The flow's key, and the time. -/
structure Keys where
  now : Instant
  flow : Slot LoginFlow

/-- `login_flows::save`. -/
def Keys.save (g : Keys) (flow : LoginFlow) : Keys :=
  if 0 < numSeconds (flow.expiresAt - g.now) then
    { g with flow := .setUntil flow (g.now + seconds (numSeconds (flow.expiresAt - g.now))) }
  else g

/-- What a wrong second factor does to the flow it was checked for (`mfa_reject`). -/
def Keys.mfaReject (g : Keys) (flow : LoginFlow) : Keys :=
  if MFA_MAX_ATTEMPTS ≤ flow.attempts + 1 then { g with flow := g.flow.del }
  else g.save { flow with attempts := flow.attempts + 1 }

/-- What a credential is worth, and what a step that passes makes of the flow. -/
inductive Outcome
  | right (flow : LoginFlow)
  | wrong

/-- The next step of a request. -/
def act (g : Keys) (outcome : Outcome) : Pc → Option (Keys × Pc)
  | .idle request =>
      match g.flow.get.filter (g.now < ·.expiresAt) with
      | none => some (g, .refused)
      | some flow => some (g, .loaded request flow)
  | .loaded request flow =>
      if request.isAt flow.stage = false then some (g, .refused)
      else
        match outcome, request with
        | .right flow', request =>
            if request.Passes flow flow' then some (g, .passing flow') else none
        | .wrong, .registration | .wrong, .later => some (g, .refused)
        | .wrong, request => some (g, .failing request flow)
  | .passing flow => some (g.save flow, .passed)
  | .failing .secondFactor flow => some (g.mfaReject flow, .rejected .secondFactor flow)
  | .failing request flow =>
      some (g.save { flow with attempts := flow.attempts + 1 }, .rejected request flow)
  | .passed | .rejected _ _ | .refused => none

/-- What happens around the requests: time passes, the server drops the key at its end, and the flow is
finished or given up. -/
inductive Env
  | tick (d : ℕ)
  | lapse
  | delete

/-- A step of the surroundings. -/
def env (g : Keys) : Env → Option Keys
  | .tick d => some { g with now := g.now + d }
  | .lapse => (g.flow.expire g.now).map fun key => { g with flow := key }
  | .delete => some { g with flow := g.flow.del }

/-- Any number of requests of one flow. -/
def calls (ι : Type) : Calls ι Keys Pc Outcome Env where
  act _ g l outcome := act g outcome l
  env := env

end Attempts

end Ridm.Login
