import Ridm.Login.Steps

/-!
# What holds of every run of a browser

A session belongs to the user of each flow on it and to a user there is, was not opened by a sign-in that
the risk policy refuses, and has passed a second factor if its `amr` says so (`Store.Ordered`).  A code
comes from `/authorize` or from the end of a flow (`code_cases`).
-/

namespace Ridm.Login

variable {T : Tenant}

/-! ## Opening a session -/

/-- What opening a session does to the sessions, and what the flow knows of it: the browser's session of
this user is authenticated again, if its cookie is read, or there is a new one. -/
inductive Opened (g : Store) (userId : Uuid) (amr : List String) (cookies : Bool) (opening : RiskAction)
    (g₁ : Store) (f₁ : LoginFlow) : Prop
  | again (id : Uuid) (s : SsoSession) (acr : String) (hcookie : g.fromRequest = some (id, s))
      (hread : cookies = true) (huser : s.userId = userId)
      (hsessions : g₁.sessions = Function.update g.sessions id (some (s.refreshAuth g.now amr acr)))
      (hnext : g₁.nextSession = g.nextSession) (hid : f₁.sessionId = some id)
      (hcopied : f₁.copied = some (s.writes + 1))
  | new (s : SsoSession) (huser : s.userId = userId) (hamr : s.amr = amr) (hopening : s.opening = opening)
      (hpassed : s.passed = amr.contains "mfa") (himpersonated : s.impersonated = false)
      (hwrites : s.writes = 0)
      (hsessions : g₁.sessions = Function.update g.sessions g.nextSession (some s))
      (hnext : g₁.nextSession = g.nextSession + 1) (hid : f₁.sessionId = some g.nextSession)
      (hcopied : f₁.copied = some 0)

lemma grows_recordLocation (u : User) (now : Instant) (l : Option Location) :
    u.Grows T (recordLocation T u now l) := by
  cases l with
  | none => exact .refl u
  | some l =>
      simp only [recordLocation]
      split_ifs
      · exact ⟨fun h => h, fun h => h, fun h => h⟩
      · exact .refl u

variable {f : LoginFlow} {g : Store} {s : SsoSession} {i : Uuid}

lemma fromRequest_eq_some {id : Uuid} (h : g.fromRequest = some (id, s)) :
    g.cookie = some id ∧ g.sessions id = some s := by
  simp only [Store.fromRequest, Option.bind_eq_some_iff, Option.map_eq_some_iff, Prod.mk.injEq] at h
  obtain ⟨i, hcookie, s', hs', rfl, rfl⟩ := h
  exact ⟨hcookie, hs'⟩

lemma mapSession_eq_update {id : Uuid} (h : g.sessions id = some s) (f : SsoSession → SsoSession) :
    (g.mapSession id f).sessions = Function.update g.sessions id (some (f s)) := by
  funext i
  by_cases hi : i = id
  · subst hi
    simp [Store.mapSession, h]
  · simp [Store.mapSession, hi]

section Open

variable (g : Store) (f : LoginFlow) (userId : Uuid) (amr : List String) (ctx : RequestContext)
  (a : Assessment)

/-- **Opening a session.** -/
lemma openSession_opened : Opened g userId amr ctx.cookies a.risk.action
    (openSession T g f userId amr ctx a).1
    (openSession T g f userId amr ctx a).2 := by
  simp only [openSession, Store.openFor]
  split
  · next id s hs =>
      obtain ⟨hs, huser⟩ := Option.filter_eq_some_iff.mp hs
      obtain ⟨-, hsession⟩ := fromRequest_eq_some hs
      rw [Bool.and_eq_true] at huser
      exact .again id s _ hs huser.1 (by simpa using huser.2) (mapSession_eq_update hsession _) rfl rfl rfl
  · exact .new _ rfl rfl rfl rfl rfl rfl rfl rfl rfl rfl

lemma openSession_users :
    UsersGrow T g.users (openSession T g f userId amr ctx a).1.users := by
  have hlocation : ∀ g₁ : Store, UsersGrow T g₁.users
      (g₁.mapUser userId fun u => recordLocation T u g.now ctx.location).users :=
    fun g₁ => (alike_mapUser fun u _ => grows_recordLocation u _ _).users
  simp only [openSession, Store.openFor]
  split
  · exact hlocation _
  · refine UsersGrow.trans ?_ (hlocation _)
    intro i u hu
    by_cases hi : i = userId
    · subst hi
      refine ⟨{ u with userAgents := u.userAgents ++ [ctx.userAgent] }, ?_, ?_⟩
      · simp [Store.mapUser, Store.createSession, hu]
      · exact ⟨fun h => h, fun h => h, fun h => h⟩
    · exact ⟨u, by simp [Store.mapUser, Store.createSession, hi, hu], .refl u⟩

lemma openSession_nextSession :
    g.nextSession ≤ (openSession T g f userId amr ctx a).1.nextSession := by
  simp only [openSession, Store.openFor]
  split
  · exact Nat.le_refl _
  · exact Nat.le_succ _

lemma openSession_flows : (openSession T g f userId amr ctx a).1.flows = g.flows := by
  simp only [openSession, Store.openFor]
  split <;> rfl

end Open

/-! ## What a step does to a session -/

/-- A session after a step: as it was but for its organization, signed in to again, new, or with a second
factor passed on it. -/
inductive Became (T : Tenant) (g : Store) (a : Step) (g' : Store) (i : Uuid) (s' : SsoSession) : Prop
  | stays (s : SsoSession) (hs : g.sessions i = some s) (hbare : s'.bare = s.bare)
  | again {id : Uuid} {o : Origin} {factor : FirstFactor} {userId : Uuid} {rememberDevice : Bool}
      (ha : a = .submit id o (.authenticate factor userId rememberDevice)) (s : SsoSession) (acr : String)
      (hs : g.fromRequest = some (i, s)) (huser : s.userId = userId)
      (hbare : s'.bare = (s.refreshAuth g.now factor.amr acr).bare)
  | new (hi : i = g.nextSession) (hnext : g'.nextSession = g.nextSession + 1)
      (howner : ∃ u, g'.users s'.userId = some u)
      (hopening : s'.opening ≠ .block) (hpassed : s'.passed = s'.amr.contains "mfa")
      (himpersonated : s'.impersonated = false) (hwrites : s'.writes = 0)
  | passes {id : Uuid} {o : Origin} {factor : SecondFactor} {enrols rememberDevice : Bool}
      (ha : a = .submit id o (.secondFactor factor enrols rememberDevice)) (f : LoginFlow) (s : SsoSession)
      (now : Instant) (acr : String) (hf : g.flows id = some f) (hs : g.sessions i = some s)
      (hsession : f.sessionId = some i) (huser : f.userId = some s.userId)
      (hbare : s'.bare = (s.refreshAuth now (addMethods f.amr factor.methods) acr).bare)

lemma SsoSession.refreshAuth_bare {s s' : SsoSession} (h : s'.bare = s.bare) (now : Instant)
    (amr : List String) (acr : String) :
    (s'.refreshAuth now amr acr).bare = (s.refreshAuth now amr acr).bare := by
  cases s
  cases s'
  simp_all [SsoSession.bare, SsoSession.refreshAuth]

/-- Every session's user is there. -/
def Store.Owned (g : Store) : Prop := ∀ i s, g.sessions i = some s → ∃ u, g.users s.userId = some u

lemma Store.Owned.of_opened_again (hg : g.Owned) {userId id : Uuid}
    (hnew : g.users userId = none) (hs : g.fromRequest = some (id, s)) : s.userId ≠ userId := by
  rintro rfl
  obtain ⟨u, hu⟩ := hg id s (fromRequest_eq_some hs).2
  rw [hnew] at hu
  cases hu

section Changes

variable {g g' : Store} {a : Step}

/-- **What the device page starts**: a sign-in, or a flow that goes on with the browser's session. -/
lemma deviceFlow_eq_ok {req : AuthRequest} {o : Origin} (h : deviceFlow T g req o = .ok (g', f)) :
    g' = g ∧ f = { request := req, stage := .authenticate, expiresAt := 0 } ∨
    ∃ i s f₀ must, g.fromRequest = some (i, s) ∧ f₀.request = req ∧ f₀.sessionId = some i ∧
      f₀.userId = some s.userId ∧ f₀.amr = s.amr ∧ f₀.copied = some s.writes ∧
      Advanced T g f₀ must g' f := by
  rw [deviceFlow] at h
  simp only at h
  split at h
  · cases h
    exact .inl ⟨rfl, rfl⟩
  · next i s hs =>
      split_ifs at h
      · cases h
        exact .inl ⟨rfl, rfl⟩
      · exact .inr ⟨i, s, _, _, hs, rfl, rfl, rfl, rfl, rfl, advance_spec h⟩

lemma deviceFlow_alike {req : AuthRequest} {o : Origin}
    (h : deviceFlow T g req o = .ok (g', f)) : Alike T g g' := by
  rcases deviceFlow_eq_ok h with ⟨rfl, -⟩ | ⟨_, _, _, _, _, _, _, _, _, _, hadvanced⟩
  · exact .refl _
  · exact hadvanced.alike

variable {f₁ : LoginFlow} {s' : SsoSession} {g₁ : Store} {must : Bool}

lemma Prepared.users {id : Uuid} {o : Origin} {act : Action}
    (h : Prepared T g id o act g₁ f₁ must) : UsersGrow T g.users g₁.users := by
  cases h with
  | keeps _ _ halike _ => exact halike.users
  | signsIn => exact openSession_users (g.recordAttempt _ _) _ _ _ _ _
  | registers userId u _ _ hnew hg₀ _ =>
      subst hg₀
      exact (usersGrow_insert (u := u) hnew).trans
        (openSession_users (Store.recordAttempt
          { g with users := Function.update g.users userId (some u) } o.ip true) _ _ _ _ _)
  | passes _ _ _ _ _ _ _ halike _ _ _ _ => exact halike.users

lemma Moves.users (h : Moves T g a g') : UsersGrow T g.users g'.users := by
  cases h with
  | shrinks h => exact h.users
  | starts => exact .refl _
  | device h => exact (deviceFlow_alike h).users
  | waits _ _ hnew =>
      rw [saveFlow_users]
      exact usersGrow_insert hnew
  | advances cookie hprepared hadvance =>
      simp only [saveFlow_users]
      exact hprepared.users.trans (advance_spec hadvance).alike.users

lemma Opened.cases {userId i : Uuid} {amr : List String} {cookies : Bool}
    {opening : RiskAction} (h : Opened g userId amr cookies opening g₁ f₁)
    (hs' : g₁.sessions i = some s') :
    g.sessions i = some s' ∨
    (∃ s acr, g.fromRequest = some (i, s) ∧ s.userId = userId ∧ s' = s.refreshAuth g.now amr acr) ∨
    (i = g.nextSession ∧ g₁.nextSession = g.nextSession + 1) ∧ s'.userId = userId ∧ s'.amr = amr ∧
      s'.opening = opening ∧ s'.passed = amr.contains "mfa" ∧ s'.impersonated = false ∧ s'.writes = 0 := by
  cases h with
  | again id s acr hcookie _ huser hsessions _ _ _ =>
      rw [hsessions] at hs'
      by_cases hi : i = id
      · subst hi
        rw [Function.update_self, Option.some.injEq] at hs'
        exact .inr (.inl ⟨s, acr, hcookie, huser, hs'.symm⟩)
      · rw [Function.update_of_ne hi] at hs'
        exact .inl hs'
  | new s huser hamr hopening hpassed himpersonated hwrites hsessions hnext _ _ =>
      rw [hsessions] at hs'
      by_cases hi : i = g.nextSession
      · subst hi
        rw [Function.update_self, Option.some.injEq] at hs'
        subst hs'
        exact .inr (.inr ⟨⟨rfl, hnext⟩, huser, hamr, hopening, hpassed, himpersonated, hwrites⟩)
      · rw [Function.update_of_ne hi] at hs'
        exact .inl hs'

/-- **What a step does to a session.** -/
lemma Moves.became (h : Moves T g a g') (hg : g.Owned)
    (hs' : g'.sessions i = some s') : Became T g a g' i s' := by
  cases h with
  | shrinks h => exact .stays s' (h.sessions i s' hs') rfl
  | starts => exact .stays s' hs' rfl
  | device h =>
      obtain ⟨s, hs, hbare⟩ := (deviceFlow_alike h).session hs'
      exact .stays s hs hbare
  | waits =>
      rw [saveFlow_sessions] at hs'
      exact .stays s' hs' rfl
  | @advances id o act g₁ g₂ f₁ f₂ must cookie hprepared hadvance =>
      have hadvanced := advance_spec hadvance
      simp only [saveFlow_sessions] at hs'
      obtain ⟨s₁, hs₁, hbare⟩ := hadvanced.alike.session hs'
      obtain ⟨huser, hamr, himpersonated, hopening, hpassed, hwrites⟩ := SsoSession.of_bare hbare
      -- A session that is opened belongs to a user that was there, or has just been made.
      have new : ∀ {userId : Uuid} {u : User} {amr : List String} {opening : RiskAction},
          g₁.users userId = some u → opening ≠ .block →
          ((i = g.nextSession ∧ g₁.nextSession = g.nextSession + 1) ∧ s₁.userId = userId ∧
            s₁.amr = amr ∧ s₁.opening = opening ∧ s₁.passed = amr.contains "mfa" ∧
            s₁.impersonated = false ∧ s₁.writes = 0) →
          Became T g (.submit id o act) { g₂.saveFlow id f₂ with cookie := cookie } i s' := by
        rintro _ _ _ _ hu hblock ⟨⟨hi, hnext⟩, rfl, rfl, rfl, hpassed₁, himpersonated₁, hwrites₁⟩
        obtain ⟨v, hv, -⟩ := hadvanced.alike.users _ _ hu
        refine .new hi ?_ ⟨v, ?_⟩ (by rwa [hopening]) (by rw [hpassed, hamr, hpassed₁])
          (himpersonated.trans himpersonated₁) (hwrites.trans hwrites₁)
        · simp only [saveFlow_nextSession]
          rw [hadvanced.alike.nextSession, hnext]
        · simp only [saveFlow_users]
          rw [huser, hv]
      cases hprepared with
      | keeps _ _ halike _ =>
          obtain ⟨s, hs, hbare'⟩ := halike.session hs₁
          exact .stays s hs (hbare.trans hbare')
      | signsIn factor userId u rememberDevice _ _ hu _ _ hrisk =>
          rcases (openSession_opened ..).cases hs₁ with hs | ⟨s, acr, hs, hsuser, rfl⟩ | hnew
          · exact .stays s₁ hs hbare
          · exact .again rfl s acr hs hsuser hbare
          · obtain ⟨v, hv, -⟩ := openSession_users (g.recordAttempt o.ip true) _ userId _ _ _ userId u hu
            exact new hv hrisk hnew
      | registers userId u _ _ hnone hg₀ hrisk =>
          subst hg₀
          rcases (openSession_opened ..).cases hs₁ with hs | ⟨s, acr, hs, hsuser, rfl⟩ | hnew
          · exact .stays s₁ hs hbare
          · exact absurd hsuser (hg.of_opened_again hnone hs)
          · obtain ⟨v, hv, -⟩ := openSession_users (Store.recordAttempt
              { g with users := Function.update g.users userId (some u) } o.ip true) _ userId _ _ _
              userId u (Function.update_self ..)
            exact new hv hrisk hnew
      | passes factor enrols rememberDevice userId sessionId s hf halike huser₁ hsession hs hsuser =>
          obtain ⟨s₀, hs₀, hbare₀⟩ := halike.session hs
          rw [mapSession_eq_update hs] at hs₁
          by_cases hi : i = sessionId
          · subst hi
            rw [Function.update_self, Option.some.injEq] at hs₁
            subst hs₁
            refine .passes rfl _ s₀ _ _ hf hs₀ hsession ?_
              (hbare.trans (SsoSession.refreshAuth_bare hbare₀ _ _ _))
            rw [huser₁, ← hsuser, (SsoSession.of_bare hbare₀).1]
          · rw [Function.update_of_ne hi] at hs₁
            obtain ⟨s₁', hs₁', hbare₁⟩ := halike.session hs₁
            exact .stays s₁' hs₁' (hbare.trans hbare₁)

lemma Moves.nextSession (h : Moves T g a g') : g.nextSession ≤ g'.nextSession := by
  cases h with
  | shrinks h => exact h.nextSession.ge
  | starts => exact Nat.le_refl _
  | device h => exact (deviceFlow_alike h).nextSession.ge
  | waits => rw [saveFlow_nextSession]
  | @advances id o _ _ _ _ _ _ cookie hprepared hadvance =>
      simp only [saveFlow_nextSession]
      rw [(advance_spec hadvance).alike.nextSession]
      cases hprepared with
      | keeps _ _ halike _ => exact halike.nextSession.ge
      | signsIn =>
          have hopened := openSession_nextSession (T := T) (g.recordAttempt o.ip true)
          exact hopened ..
      | registers userId u _ _ _ hg₀ _ =>
          subst hg₀
          have hopened := openSession_nextSession (T := T) (Store.recordAttempt
            { g with users := Function.update g.users userId (some u) } o.ip true)
          exact hopened ..
      | passes _ _ _ _ _ _ _ halike _ _ _ _ => exact halike.nextSession.ge

/-! ## What a step does to a flow -/

/-- The flow that a step starts or goes on with, as it leaves it. -/
inductive Leaves (T : Tenant) (g g' : Store) : Step → LoginFlow → Prop
  | started (req : AuthRequest) (o : Origin) {f : LoginFlow} (hflow : (decide T g req o).flow req = some f)
      (husers : g'.users = g.users) (hsessions : g'.sessions = g.sessions) (expiresAt : Instant) :
      Leaves T g g' (.authorize req o) { f with expiresAt := expiresAt }
  | device {clientId : Uuid} {scopes : List String} {skipConsent : Bool} {deviceCode : String}
      {o : Origin} {g₁ : Store} {f : LoginFlow}
      (h : deviceFlow T g (deviceRequest clientId scopes skipConsent deviceCode) o = .ok (g₁, f))
      (hsessions : g'.sessions = g₁.sessions) (expiresAt : Instant) :
      Leaves T g g' (.verifyUserCode clientId scopes skipConsent deviceCode o)
        { f with expiresAt := expiresAt }
  | waits {id : Uuid} {o : Origin} {u : User} {f : LoginFlow} (userId : Uuid) (hf : g.flows id = some f)
      (hstart : f.stage = .authenticate ∨ f.stage = .register) :
      Leaves T g g' (.submit id o (.register userId u true))
        { f with userId := some userId, stage := .verifyEmail }
  | advanced {id : Uuid} {o : Origin} {act : Action} {g₁ g₂ : Store} {f₁ f₂ : LoginFlow} {must : Bool}
      (hprepared : Prepared T g id o act g₁ f₁ must) (hadvanced : Advanced T g₁ f₁ must g₂ f₂)
      (husers : g'.users = g₂.users) (hsessions : g'.sessions = g₂.sessions) :
      Leaves T g g' (.submit id o act) f₂

lemma Prepared.flows {id : Uuid} {o : Origin} {act : Action}
    (h : Prepared T g id o act g₁ f₁ must) : g₁.flows = g.flows := by
  cases h with
  | keeps _ _ halike _ => exact halike.flows
  | signsIn => exact openSession_flows ..
  | registers _ _ _ _ _ hg₀ _ =>
      subst hg₀
      exact openSession_flows ..
  | passes _ _ _ _ _ _ _ halike _ _ _ _ => exact halike.flows

/-- **What a step does to a flow**: it counts an attempt, or leaves it. -/
lemma Moves.flows (h : Moves T g a g') {f' : LoginFlow} (hf' : g'.flows i = some f') :
    (∃ f n, g.flows i = some f ∧ f' = { f with attempts := n }) ∨ Leaves T g g' a f' := by
  cases h with
  | shrinks h => exact .inl (h.flows i f' hf')
  | starts req o f hflow =>
      rcases createFlow_flows hf' with rfl | hold
      · refine .inr (.started req o hflow ?_ ?_ _) <;> rfl
      · exact .inl ⟨f', f'.attempts, hold, rfl⟩
  | device h =>
      rcases createFlow_flows hf' with rfl | hold
      · refine .inr (.device h ?_ _)
        rfl
      · rw [(deviceFlow_alike h).flows] at hold
        exact .inl ⟨f', f'.attempts, hold, rfl⟩
  | waits hf hstart _ =>
      rcases saveFlow_flows hf' with rfl | hold
      · exact .inr (.waits _ hf hstart)
      · exact .inl ⟨f', f'.attempts, hold, rfl⟩
  | advances cookie hprepared hadvance =>
      have hadvanced := advance_spec hadvance
      rcases saveFlow_flows hf' with rfl | hold
      · exact .inr (.advanced hprepared hadvanced (by simp) (by simp))
      · rw [hadvanced.alike.flows, hprepared.flows] at hold
        exact .inl ⟨f', f'.attempts, hold, rfl⟩

end Changes

/-! ## What is decided of a session -/

section Decisions

variable {g : Store} {req : AuthRequest} {o : Origin} {id : Uuid} {s : SsoSession}

lemma unfinishedStage_step {stage : FlowStage} (h : unfinishedStage T g s o = .step stage) :
    stage = .authenticate ∨ stage = .mfa ∧ "mfa" ∉ s.amr ∨
      stage = .passwordChange ∧ ∃ u, g.users s.userId = some u ∧ u.mustChangePassword = true ∧
        T.password = true := by
  rw [unfinishedStage.eq_def] at h
  split at h
  · exact .inl (Owed.step.inj h).symm
  · next u hu =>
      simp only at h
      split_ifs at h with _ _ hmust _ hstep hmfa
      · exact .inl (Owed.step.inj h).symm
      · simp only [Bool.and_eq_true] at hmust
        exact .inr (.inr ⟨(Owed.step.inj h).symm, u, hu, hmust⟩)
      · exact .inr (.inl ⟨(Owed.step.inj h).symm, hstep.2⟩)
      · exact .inr (.inl ⟨(Owed.step.inj h).symm, fun hamr => hmfa (.inl hamr)⟩)

/-- **What a session that owes nothing has been asked.** -/
lemma unfinishedStage_nothing (himpersonated : s.impersonated = false)
    (h : unfinishedStage T g s o = .nothing) :
    ∃ u, g.users s.userId = some u ∧ (u.mustChangePassword = true → T.password = false) ∧
      (evaluate T u g.attempts g.now o.ip o.location false).action ≠ .block ∧
      ((evaluate T u g.attempts g.now o.ip o.location false).action = .stepUp → "mfa" ∈ s.amr) ∧
      ("mfa" ∈ s.amr ∨ policyRequiresMfa T u = false ∨ g.isTrusted s.userId = true) := by
  rw [unfinishedStage.eq_def] at h
  split at h
  · cases h
  · next u hu =>
      simp only [himpersonated, Bool.false_eq_true, if_false] at h
      split_ifs at h with _ hmust hblock hstep hmfa htrusted <;>
        refine ⟨u, hu, by simpa using hmust, hblock, fun hs => ?_, ?_⟩
      · exact not_not.mp fun hnot => hstep ⟨hs, hnot⟩
      · exact hmfa.imp_right .inl
      · exact not_not.mp fun hnot => hstep ⟨hs, hnot⟩
      · exact .inr (.inr htrusted)

/-- The user is to sign in again for the request. -/
def Renews (g : Store) (req : AuthRequest) (s : SsoSession) : Prop :=
  "create" ∈ req.prompt ∨ "login" ∈ req.prompt ∨ "select_account" ∈ req.prompt ∨
    freshEnough g.now req s = false

instance (g : Store) (req : AuthRequest) (s : SsoSession) : Decidable (Renews g req s) :=
  inferInstanceAs (Decidable (_ ∨ _ ∨ _ ∨ _))

/-- What `/authorize` decides of the browser's session, if it goes on with it. -/
inductive Decided (T : Tenant) (g : Store) (req : AuthRequest) (o : Origin) (id : Uuid) (s : SsoSession) :
    Decision → Prop
  | resume {stage : FlowStage} (howed : unfinishedStage T g s o = .step stage)
      (hstage : stage ≠ .authenticate) (hprompt : "none" ∉ req.prompt) :
      Decided T g req o id s (.resume stage id s)
  | stepUp (howed : unfinishedStage T g s o = .nothing) (hacr : acrOk req s = false) :
      Decided T g req o id s (.resume .mfa id s)
  | consent (howed : unfinishedStage T g s o = .nothing) (hacr : acrOk req s = true)
      (hpending : pendingScopes g req s.userId ≠ []) (hprompt : "none" ∉ req.prompt) :
      Decided T g req o id s (.consent (pendingScopes g req s.userId) id s)
  | code (howed : unfinishedStage T g s o = .nothing) (hacr : acrOk req s = true)
      (hpending : pendingScopes g req s.userId = []) : Decided T g req o id s (.code id s)

/-- **What `/authorize` decides**: it asks to sign in, refuses, or goes on with the browser's session. -/
lemma decide_cases {d : Decision} (h : decide T g req o = d) :
    (∃ stage, d = .login stage ∧ (stage = .authenticate ∨ stage = .register)) ∨
      (d = .accessDenied ∨ d = .loginRequired ∨ d = .consentRequired) ∨
      ∃ id s, g.fromRequest = some (id, s) ∧ ¬ Renews g req s ∧ Decided T g req o id s d := by
  have login : ∀ {d : Decision}, (if "none" ∈ req.prompt then Decision.loginRequired
      else Decision.login (if "create" ∈ req.prompt then .register else .authenticate)) = d →
      (∃ stage, d = .login stage ∧ (stage = .authenticate ∨ stage = .register)) ∨
        (d = .accessDenied ∨ d = .loginRequired ∨ d = .consentRequired) ∨
        ∃ id s, g.fromRequest = some (id, s) ∧ ¬ Renews g req s ∧ Decided T g req o id s d := by
    rintro _ rfl
    split_ifs
    · exact .inr (.inl (.inr (.inl rfl)))
    · exact .inl ⟨_, rfl, .inr rfl⟩
    · exact .inl ⟨_, rfl, .inl rfl⟩
  rw [decide.eq_def] at h
  simp only at h
  split at h
  · exact login h
  · next id s hs =>
      split at h
      · exact login h
      · next hrenews =>
          split at h
          · exact .inr (.inl (.inl h.symm))
          · exact login h
          · next stage hstage howed =>
              split_ifs at h with hprompt
              · exact .inr (.inl (.inr (.inl h.symm)))
              · exact .inr (.inr ⟨id, s, hs, hrenews, h ▸ .resume howed hstage hprompt⟩)
          · next howed =>
              rw [decideConsent] at h
              split_ifs at h with hacr hpending hprompt <;> subst h
              · exact .inr (.inr ⟨id, s, hs, hrenews, .code howed hacr hpending⟩)
              · exact .inr (.inl (.inr (.inr rfl)))
              · exact .inr (.inl (.inl rfl))
              · exact .inr (.inr ⟨id, s, hs, hrenews, .consent howed hacr hpending hprompt⟩)
              · exact .inr (.inl (.inr (.inl rfl)))
              · exact .inr (.inr ⟨id, s, hs, hrenews, .stepUp howed (by simpa using hacr)⟩)

lemma Decided.flow {d : Decision} (h : Decided T g req o id s d)
    (hf : d.flow req = some f) : f.sessionId = some id ∧ f.userId = some s.userId ∧
      f.stage ≠ .authenticate ∧ f.stage ≠ .register ∧ f.stage ≠ .done := by
  cases h with
  | resume howed hstage =>
      cases hf
      refine ⟨rfl, rfl, hstage, ?_⟩
      rcases unfinishedStage_step howed with h | ⟨h, -⟩ | ⟨h, -⟩ <;> subst h <;> exact ⟨nofun, nofun⟩
  | stepUp =>
      cases hf
      exact ⟨rfl, rfl, nofun, nofun, nofun⟩
  | consent =>
      cases hf
      exact ⟨rfl, rfl, nofun, nofun, nofun⟩
  | code => cases hf

/-- **What `/authorize` starts**: a flow that signs in, or one that goes on with the browser's session. -/
lemma decide_flow (h : (decide T g req o).flow req = some f) :
    (∃ stage, (stage = .authenticate ∨ stage = .register) ∧
      f = { request := req, stage := stage, expiresAt := 0 }) ∨
    ∃ id s, g.fromRequest = some (id, s) ∧ ¬ Renews g req s ∧
      Decided T g req o id s (decide T g req o) := by
  rcases decide_cases rfl with ⟨stage, hd, hstage⟩ | hd | hdecided
  · rw [hd] at h
    cases h
    exact .inl ⟨stage, hstage, rfl⟩
  · rcases hd with hd | hd | hd <;> rw [hd] at h <;> cases h
  · exact .inr hdecided

end Decisions

/-! ## Runs -/

/-- The browser has no session and no flow yet. -/
structure Started (g : Store) : Prop where
  sessions : ∀ i, g.sessions i = none
  flows : ∀ i, g.flows i = none

/-- A flow at its start has no session, and one that has a session has its user. -/
structure LoginFlow.Belongs (f : LoginFlow) (g : Store) : Prop where
  start : f.stage = .authenticate ∨ f.stage = .register → f.sessionId = none
  below : ∀ i, f.sessionId = some i → i < g.nextSession
  owner : ∀ i s, f.sessionId = some i → g.sessions i = some s → f.userId = some s.userId

/-- What holds of every run. -/
structure Store.Ordered (g : Store) : Prop where
  owned : g.Owned
  below : ∀ i s, g.sessions i = some s → i < g.nextSession
  own : ∀ i s, g.sessions i = some s → s.impersonated = false
  opening : ∀ i s, g.sessions i = some s → s.opening ≠ .block
  passed : ∀ i s, g.sessions i = some s → "mfa" ∈ s.amr → s.passed = true
  flow : ∀ i f, g.flows i = some f → f.Belongs g

lemma Started.ordered (h : Started g) : g.Ordered where
  owned i _ hs := absurd (h.sessions i ▸ hs) nofun
  below i _ hs := absurd (h.sessions i ▸ hs) nofun
  own i _ hs := absurd (h.sessions i ▸ hs) nofun
  opening i _ hs := absurd (h.sessions i ▸ hs) nofun
  passed i _ hs := absurd (h.sessions i ▸ hs) nofun
  flow i _ hf := absurd (h.flows i ▸ hf) nofun

section Ordered

variable {g g' : Store} {a : Step}

/-- **A session keeps its user**, and what else does not change of it. -/
lemma Became.kept {s' : SsoSession} (h : Became T g a g' i s') :
    (∃ s, g.sessions i = some s ∧ s'.userId = s.userId ∧ s'.impersonated = s.impersonated ∧
      s'.opening = s.opening ∧ (s.passed = true → s'.passed = true)) ∨
    (i = g.nextSession ∧ g'.nextSession = g.nextSession + 1) ∧ (∃ u, g'.users s'.userId = some u) ∧
      s'.impersonated = false ∧ s'.opening ≠ .block := by
  have refreshed : ∀ {s : SsoSession} {now : Instant} {amr : List String} {acr : String},
      g.sessions i = some s → s'.bare = (s.refreshAuth now amr acr).bare →
      ∃ s, g.sessions i = some s ∧ s'.userId = s.userId ∧ s'.impersonated = s.impersonated ∧
        s'.opening = s.opening ∧ (s.passed = true → s'.passed = true) := by
    intro s now amr acr hs hbare
    obtain ⟨huser, -, himpersonated, hopening, hpassed, -⟩ := SsoSession.of_bare hbare
    exact ⟨s, hs, huser, himpersonated, hopening, fun h => by simp [hpassed, SsoSession.refreshAuth, h]⟩
  cases h with
  | stays s hs hbare =>
      obtain ⟨huser, -, himpersonated, hopening, hpassed, -⟩ := SsoSession.of_bare hbare
      exact .inl ⟨s, hs, huser, himpersonated, hopening, fun h => hpassed.trans h⟩
  | again _ s acr hs _ hbare => exact .inl (refreshed (fromRequest_eq_some hs).2 hbare)
  | new hi hnext howner hopening _ himpersonated _ =>
      exact .inr ⟨⟨hi, hnext⟩, howner, himpersonated, hopening⟩
  | passes _ f s now acr _ hs _ _ hbare => exact .inl (refreshed hs hbare)

lemma Became.passed {s' : SsoSession} (h : Became T g a g' i s')
    (hg : ∀ i s, g.sessions i = some s → "mfa" ∈ s.amr → s.passed = true) (hmfa : "mfa" ∈ s'.amr) :
    s'.passed = true := by
  have refreshed : ∀ {s : SsoSession} {now : Instant} {amr : List String} {acr : String},
      s'.bare = (s.refreshAuth now amr acr).bare → s'.passed = true := by
    intro s now amr acr hbare
    obtain ⟨-, hamr, -, -, hpassed, -⟩ := SsoSession.of_bare hbare
    rw [hamr] at hmfa
    have hmfa : "mfa" ∈ amr := hmfa
    simp [hpassed, SsoSession.refreshAuth, hmfa]
  cases h with
  | stays s hs hbare =>
      obtain ⟨-, hamr, -, -, hpassed, -⟩ := SsoSession.of_bare hbare
      rw [hpassed]
      exact hg i s hs (hamr ▸ hmfa)
  | again _ _ _ _ _ hbare => exact refreshed hbare
  | new _ _ _ _ hpassed => simpa [hpassed] using hmfa
  | passes _ _ _ _ _ _ _ _ _ hbare => exact refreshed hbare

lemma LoginFlow.Belongs.after (hf : f.Belongs g) (hg : g.Owned)
    (h : Moves T g a g') : f.Belongs g' where
  start := hf.start
  below i hi := Nat.lt_of_lt_of_le (hf.below i hi) h.nextSession
  owner i s' hi hs' := by
    rcases (h.became hg hs').kept with ⟨s, hs, huser, -⟩ | ⟨⟨rfl, -⟩, -⟩
    · rw [huser]
      exact hf.owner i s hi hs
    · exact absurd (hf.below _ hi) (Nat.lt_irrefl _)

lemma Opened.session {g₁ : Store} {userId : Uuid} {amr : List String} {cookies : Bool}
    {opening : RiskAction} {f₁ : LoginFlow} (h : Opened g userId amr cookies opening g₁ f₁) :
    ∃ i s, f₁.sessionId = some i ∧ g₁.sessions i = some s ∧ s.userId = userId := by
  cases h with
  | again id s acr _ _ huser hsessions _ hid _ =>
      exact ⟨id, s.refreshAuth g.now amr acr, hid, by rw [hsessions, Function.update_self], huser⟩
  | new s huser _ _ _ _ _ hsessions _ hid _ =>
      exact ⟨_, s, hid, by rw [hsessions, Function.update_self], huser⟩

lemma LoginFlow.belongs_of_session (hbelow : ∀ i s, g.sessions i = some s → i < g.nextSession)
    (hstage : f.stage ≠ .authenticate ∧ f.stage ≠ .register) (hi : f.sessionId = some i)
    (hs : g.sessions i = some s) (huser : f.userId = some s.userId) : f.Belongs g where
  start h := (h.elim hstage.1 hstage.2).elim
  below j hj := by
    obtain rfl : i = j := Option.some.inj (hi.symm.trans hj)
    exact hbelow i s hs
  owner j t hj ht := by
    obtain rfl : i = j := Option.some.inj (hi.symm.trans hj)
    obtain rfl : s = t := Option.some.inj (hs.symm.trans ht)
    exact huser

lemma Advanced.started {g₁ g₂ : Store} {f₁ f₂ : LoginFlow} {must : Bool}
    (h : Advanced T g₁ f₁ must g₂ f₂) (huser : f₁.userId.isSome) (hsession : f₁.sessionId.isSome) :
    f₂.stage ≠ .authenticate ∧ f₂.stage ≠ .register := by
  refine ⟨fun hstart => ?_, h.stage.1⟩
  rcases h.start hstart with hnone | hnone
  · simp [hnone] at huser
  · simp [hnone] at hsession

/-- **The flow a step leaves belongs to its session's user.** -/
lemma Leaves.belongs {f' : LoginFlow} (h : Leaves T g g' a f') (hg : g.Ordered)
    (hafter : ∀ i f, g.flows i = some f → f.Belongs g')
    (hbelow : ∀ i s, g'.sessions i = some s → i < g'.nextSession) : f'.Belongs g' := by
  cases h with
  | started req o hflow _ hsessions =>
      rcases decide_flow hflow with ⟨stage, -, rfl⟩ | ⟨id, s, hs, -, hd⟩
      · exact ⟨fun _ => rfl, nofun, nofun⟩
      · obtain ⟨hsession, huser, hstart, hregister, -⟩ := hd.flow hflow
        refine LoginFlow.belongs_of_session hbelow ⟨hstart, hregister⟩ hsession ?_ huser
        rw [hsessions]
        exact (fromRequest_eq_some hs).2
  | device h hsessions =>
      rcases deviceFlow_eq_ok h with ⟨-, rfl⟩ | ⟨i, s, f₀, must, hs, -, hsession, huser, -, -, hadvanced⟩
      · exact ⟨fun _ => rfl, nofun, nofun⟩
      · obtain ⟨s', hs', hbare⟩ := hadvanced.alike.session_after (fromRequest_eq_some hs).2
        refine LoginFlow.belongs_of_session (i := i) (s := s') hbelow
          (hadvanced.started (by simp [huser]) (by simp [hsession])) ?_ (hsessions ▸ hs') ?_
        · exact hadvanced.same.sessionId.trans hsession
        · rw [(SsoSession.of_bare hbare).1]
          exact hadvanced.same.userId.trans huser
  | waits userId hf hstart =>
      have hnone := (hg.flow _ _ hf).start hstart
      exact ⟨fun _ => hnone, fun i hi => absurd (hnone.symm.trans hi) nofun,
        fun i s hi => absurd (hnone.symm.trans hi) nofun⟩
  | @advanced _ _ _ g₁ g₂ f₁ f₂ must hprepared hadvanced _ hsessions =>
      have opened : ∀ {g₀ : Store} {userId : Uuid} {amr : List String} {cookies : Bool}
          {opening : RiskAction}, Opened g₀ userId amr cookies opening g₁ f₁ →
          f₁.userId = some userId → f'.Belongs g' := by
        intro g₀ userId amr cookies opening hopened huser
        obtain ⟨i, s, hi, hs, hsuser⟩ := hopened.session
        obtain ⟨s', hs', hbare⟩ := hadvanced.alike.session_after hs
        refine LoginFlow.belongs_of_session (i := i) (s := s') hbelow
          (hadvanced.started (by simp [huser]) (by simp [hi])) ?_ (hsessions ▸ hs') ?_
        · exact hadvanced.same.sessionId.trans hi
        · rw [(SsoSession.of_bare hbare).1, hsuser]
          exact hadvanced.same.userId.trans huser
      -- A flow that was there goes on with its session.
      have kept : ∀ {f : LoginFlow}, f.Belongs g' → f₁.userId.isSome → f₁.sessionId = f.sessionId →
          f₁.userId = f.userId → f'.Belongs g' := by
        intro f hf hisSome hsession huser
        have hsession' := hadvanced.same.sessionId.trans hsession
        have huser' := hadvanced.same.userId.trans huser
        refine ⟨fun hstart => ?_, fun i hi => hf.below i (hsession' ▸ hi), fun i s hi hs => ?_⟩
        · rw [hadvanced.same.sessionId]
          by_contra hnone
          obtain ⟨h₁, h₂⟩ := hadvanced.started hisSome (Option.ne_none_iff_isSome.mp hnone)
          exact hstart.elim h₁ h₂
        · rw [huser']
          exact hf.owner i s (hsession' ▸ hi) hs
      cases hprepared with
      | keeps hf hisSome _ hsame =>
          exact kept (hafter _ _ hf) (hsame.userId ▸ hisSome) hsame.sessionId hsame.userId
      | signsIn => exact opened (openSession_opened ..) rfl
      | registers => exact opened (openSession_opened ..) rfl
      | passes _ _ _ _ _ _ hf _ huser _ _ _ => exact kept (hafter _ _ hf) (by simp [huser]) rfl rfl

/-- **The invariant's step.** -/
theorem ordered_step (hg : g.Ordered) (h : (browser T).step g a = some g') : g'.Ordered := by
  have hmoves := browser_moves h
  have hkept : ∀ i s', g'.sessions i = some s' → Became T g a g' i s' := fun _ _ hs' =>
    hmoves.became hg.owned hs'
  have hbelow : ∀ i s, g'.sessions i = some s → i < g'.nextSession := by
    intro i s' hs'
    rcases (hkept i s' hs').kept with ⟨s, hs, -⟩ | ⟨⟨rfl, hnext⟩, -⟩
    · exact Nat.lt_of_lt_of_le (hg.below i s hs) hmoves.nextSession
    · rw [hnext]
      exact Nat.lt_succ_self _
  have hafter : ∀ i f, g.flows i = some f → f.Belongs g' := fun i f hf =>
    (hg.flow i f hf).after hg.owned hmoves
  refine ⟨fun i s' hs' => ?_, hbelow, fun i s' hs' => ?_, fun i s' hs' => ?_,
    fun i s' hs' => (hkept i s' hs').passed hg.passed, fun i f' hf' => ?_⟩
  · rcases (hkept i s' hs').kept with ⟨s, hs, huser, -⟩ | ⟨-, howner, -⟩
    · obtain ⟨u, hu⟩ := hg.owned i s hs
      obtain ⟨v, hv, -⟩ := hmoves.users _ u hu
      exact ⟨v, by rw [huser, hv]⟩
    · exact howner
  · rcases (hkept i s' hs').kept with ⟨s, hs, -, himpersonated, -⟩ | ⟨-, -, himpersonated, -⟩
    · exact himpersonated.trans (hg.own i s hs)
    · exact himpersonated
  · rcases (hkept i s' hs').kept with ⟨s, hs, -, -, hopening, -⟩ | ⟨-, -, -, hopening⟩
    · rw [hopening]
      exact hg.opening i s hs
    · exact hopening
  · rcases hmoves.flows hf' with ⟨f, n, hf, rfl⟩ | hleaves
    · obtain ⟨hstart, hbelow', howner⟩ := hafter i f hf
      exact ⟨hstart, hbelow', howner⟩
    · exact hleaves.belongs hg hafter hbelow

end Ordered

/-! ## The methods of a second factor -/

lemma mem_foldl_methods {methods : List String} : ∀ {amr : List String} {m : String},
    m ∈ methods.foldl (fun amr m => if m ∈ amr then amr else amr ++ [m]) amr ↔ m ∈ amr ∨ m ∈ methods := by
  induction methods with
  | nil => simp
  | cons n ns ih =>
      intro amr m
      rw [List.foldl_cons, ih]
      split_ifs with hn
      · rw [List.mem_cons]
        constructor
        · exact Or.imp_right .inr
        · rintro (h | rfl | h)
          · exact .inl h
          · exact .inl hn
          · exact .inr h
      · simp [or_assoc]

/-- **A second factor adds its methods**, and takes none away. -/
lemma mem_addMethods {amr methods : List String} {m : String} :
    m ∈ addMethods amr methods ↔ m ∈ amr ∨ m ∈ methods ∨ m = "mfa" := by
  rw [addMethods, mem_foldl_methods, List.mem_append, List.mem_singleton]

/-! ## Codes -/

/-- What a code says of the session it comes from. -/
structure AuthCode.Of (c : AuthCode) (id : Uuid) (s : SsoSession) : Prop where
  sessionId : c.sessionId = id
  userId : c.userId = s.userId
  amr : c.amr = s.amr

lemma issueCode_eq_code {req : AuthRequest} {id : Uuid} {c : AuthCode}
    (h : issueCode req id s = .code c) : req.saml = false ∧ c.Of id s := by
  rw [issueCode] at h
  split_ifs at h with hsaml
  cases h
  exact ⟨by simpa using hsaml, rfl, rfl, rfl⟩

/-- **Where a code comes from**: from `/authorize`, for the browser's session that owes nothing, or from
the end of a flow that is done, which is neither for a device nor for SAML. -/
theorem code_cases {a : Step} {c : AuthCode} (h : a.code T g = some c) :
    (∃ req o id s, a = .authorize req o ∧ g.fromRequest = some (id, s) ∧ ¬ Renews g req s ∧
      Decided T g req o id s (.code id s) ∧ req.saml = false ∧ c.Of id s) ∨
    ∃ i f id s, a = .finish i ∧ g.flows i = some f ∧ f.stage = .done ∧ g.fromRequest = some (id, s) ∧
      f.sessionId = some id ∧ f.userId = some s.userId ∧ f.request.deviceCode = none ∧
      f.request.saml = false ∧ c.Of id s := by
  rw [Step.code] at h
  split at h
  case h_2 => cases h
  next g' c' hrun =>
  cases h
  cases a with
  | authorize req o =>
      simp only [Step.run, Option.some.injEq, Prod.mk.injEq] at hrun
      obtain ⟨-, hanswer⟩ := hrun
      rw [authorize] at hanswer
      split at hanswer
      · cases hanswer
      · next id s _ hd =>
          rcases decide_cases hd with ⟨_, h, _⟩ | h | ⟨id', s', hs, hrenews, hdecided⟩
          · cases h
          · rcases h with h | h | h <;> cases h
          · cases hdecided with
            | code howed hacr hpending =>
                exact .inl ⟨req, o, id, s, rfl, hs, hrenews, .code howed hacr hpending,
                  issueCode_eq_code hanswer⟩
      · cases hanswer
  | finish i =>
      simp only [Step.run, Option.map_eq_some_iff, toOption_eq_some] at hrun
      obtain ⟨⟨g₁, answer⟩, hfinish, heq⟩ := hrun
      obtain ⟨f, id, s, hf, hdone, hs, hsession, huser, -, rfl⟩ := finish_eq_ok hfinish
      simp only [Prod.mk.injEq, Option.some.injEq] at heq
      obtain ⟨-, heq⟩ := heq
      split_ifs at heq with hdevice
      exact .inr ⟨i, f, id, s, rfl, hf, hdone, hs, hsession, huser, by simpa using hdevice,
        issueCode_eq_code heq⟩
  | verifyUserCode clientId scopes skipConsent deviceCode o =>
      simp only [Step.run, Option.map_eq_some_iff, toOption_eq_some, verifyUserCode] at hrun
      obtain ⟨r, hr, heq⟩ := hrun
      cases hflow : deviceFlow T g (deviceRequest clientId scopes skipConsent deviceCode) o with
      | error e =>
          rw [hflow] at hr
          cases hr
      | ok r' =>
          rw [hflow] at hr
          cases hr
          cases heq
  | submit i o a =>
      simp only [Step.run, Option.map_eq_some_iff] at hrun
      obtain ⟨g₁, -, heq⟩ := hrun
      cases heq
  | tick d => cases hrun
  | endSession i => cases hrun
  | dropFlow i => cases hrun
  | forgetDevice => cases hrun

def codes (T : Tenant) : Store → List Step → List AuthCode
  | _, [] => []
  | g, a :: as => (a.code T g).toList ++ ((browser T).step g a).elim [] fun g' => codes T g' as

/-! ## A small tenant -/

def sampleTenant : Tenant where
  password := true
  passkey := true
  maxAgeDays := none
  mfa := .off
  requireTerms := false
  risk := { weights := ⟨60, 60, 60, 30⟩ }
  rememberDeviceDays := 30
  schema := ⟨[], false⟩
  platform :=
    { toLowercase := id
      validateEmail := fun _ => true
      regex := fun _ => none
      urlScheme := fun _ => none
      parseDate := fun _ => none
      asF64 := fun _ => 0
      f64Text := fun _ => "" }
  travelledImpossibly _ _ _ _ := false

def Store.ofUser (u : User) : Store where
  now := 0
  users i := if i = 1 then some u else none
  attempts := []
  consents _ _ := []
  sessions _ := none
  flows _ := none
  nextSession := 0
  nextFlow := 0
  cookie := none
  device := none

lemma started_ofUser (u : User) : Started (.ofUser u) := ⟨fun _ => rfl, fun _ => rfl⟩

def sampleRequest : AuthRequest := { clientId := 5, scopes := ["openid"], skipConsent := true }

end Ridm.Login
