import Ridm.Login.Flows

/-!
# What the steps of a flow do

`advance_spec` says once what computing the stage does, and what it has asked of the user of a flow that
is done.  Before the stage is computed a step does one of three things (`Prepared`): it changes something
of the user that is never taken back, it signs in, or it records a second factor.  `browser_moves` is the
list of all that can happen.
-/

namespace Ridm.Login

variable {T : Tenant}

/-! ## Stores that differ in little -/

/-- What a user has done stays done, and what the policy demands of him stays demanded. -/
structure User.Grows (T : Tenant) (u u' : User) : Prop where
  profile : missingRequired T u = [] → missingRequired T u' = []
  terms : owesTerms T u = false → owesTerms T u' = false
  mfa : policyRequiresMfa T u = true → policyRequiresMfa T u' = true

lemma User.Grows.refl (u : User) : u.Grows T u := ⟨id, id, id⟩

lemma User.Grows.trans {u₁ u₂ u₃ : User} (h : u₁.Grows T u₂) (h' : u₂.Grows T u₃) : u₁.Grows T u₃ :=
  ⟨fun hp => h'.profile (h.profile hp), fun ht => h'.terms (h.terms ht), fun hm => h'.mfa (h.mfa hm)⟩

def UsersGrow (T : Tenant) (users users' : Uuid → Option User) : Prop :=
  ∀ i u, users i = some u → ∃ u', users' i = some u' ∧ u.Grows T u'

lemma UsersGrow.refl (users : Uuid → Option User) : UsersGrow T users users :=
  fun _ u hu => ⟨u, hu, .refl u⟩

lemma UsersGrow.trans {u₁ u₂ u₃ : Uuid → Option User} (h : UsersGrow T u₁ u₂) (h' : UsersGrow T u₂ u₃) :
    UsersGrow T u₁ u₃ := by
  intro i u hu
  obtain ⟨v, hv, hgrows⟩ := h i u hu
  obtain ⟨w, hw, hgrows'⟩ := h' i v hv
  exact ⟨w, hw, hgrows.trans hgrows'⟩

/-- A session but for the organization it acts in. -/
def SsoSession.bare (s : SsoSession) : SsoSession := { s with orgId := none }

/-- Users have grown, and sessions may act in another organization; what else the flows look at is as it
was. -/
structure Alike (T : Tenant) (g g' : Store) : Prop where
  users : UsersGrow T g.users g'.users
  sessions : ∀ i, (g'.sessions i).map SsoSession.bare = (g.sessions i).map SsoSession.bare
  flows : g'.flows = g.flows
  nextSession : g'.nextSession = g.nextSession
  nextFlow : g'.nextFlow = g.nextFlow
  cookie : g'.cookie = g.cookie
  device : g'.device = g.device
  now : g'.now = g.now

lemma Alike.refl (g : Store) : Alike T g g := ⟨.refl _, fun _ => rfl, rfl, rfl, rfl, rfl, rfl, rfl⟩

variable {i : Uuid} {f' : LoginFlow} {userId : Uuid} {u : User}

variable {g g' : Store}

lemma Alike.session (h : Alike T g g') {s' : SsoSession}
    (hs' : g'.sessions i = some s') : ∃ s, g.sessions i = some s ∧ s'.bare = s.bare := by
  have hbare := h.sessions i
  rw [hs'] at hbare
  cases hs : g.sessions i with
  | none =>
      rw [hs] at hbare
      cases hbare
  | some s =>
      rw [hs] at hbare
      exact ⟨s, rfl, Option.some.inj hbare⟩

lemma Alike.session_after (h : Alike T g g') {s : SsoSession}
    (hs : g.sessions i = some s) : ∃ s', g'.sessions i = some s' ∧ s'.bare = s.bare := by
  have hbare := h.sessions i
  rw [hs] at hbare
  exact Option.map_eq_some_iff.mp hbare

lemma SsoSession.of_bare {s s' : SsoSession} (h : s'.bare = s.bare) :
    s'.userId = s.userId ∧ s'.amr = s.amr ∧ s'.impersonated = s.impersonated ∧ s'.opening = s.opening ∧
      s'.passed = s.passed ∧ s'.writes = s.writes := by
  simp only [SsoSession.bare, SsoSession.mk.injEq] at h
  obtain ⟨huser, -, hamr, -, -, himpersonated, hopening, hpassed, hwrites⟩ := h
  exact ⟨huser, hamr, himpersonated, hopening, hpassed, hwrites⟩

section Parts

variable {g : Store}

lemma alike_mapUser {id : Uuid} {f : User → User} (hf : ∀ u, g.users id = some u → u.Grows T (f u)) :
    Alike T g (g.mapUser id f) := by
  refine ⟨fun i u hu => ?_, fun _ => rfl, rfl, rfl, rfl, rfl, rfl, rfl⟩
  by_cases hi : i = id
  · subst hi
    refine ⟨f u, ?_, hf u hu⟩
    rw [Store.mapUser]
    simp [hu]
  · refine ⟨u, ?_, .refl u⟩
    rw [Store.mapUser]
    simp [hi, hu]

lemma alike_recordAttempt (ip : Option String) (success : Bool) : Alike T g (g.recordAttempt ip success) :=
  ⟨.refl _, fun _ => rfl, rfl, rfl, rfl, rfl, rfl, rfl⟩

lemma alike_grant (userId clientId : Uuid) (scopes : List String) :
    Alike T g (g.grant userId clientId scopes) :=
  ⟨.refl _, fun _ => rfl, rfl, rfl, rfl, rfl, rfl, rfl⟩

lemma alike_bindOrganization (flow : LoginFlow) (org : Uuid) :
    Alike T g (bindOrganization g flow org).1 := by
  rw [bindOrganization]
  split
  · next id =>
      refine ⟨.refl _, fun i => ?_, rfl, rfl, rfl, rfl, rfl, rfl⟩
      simp only [Store.mapSession]
      split_ifs
      · cases g.sessions i <;> rfl
      · rfl
  · exact .refl g

lemma usersGrow_insert (h : g.users userId = none) :
    UsersGrow T g.users (Function.update g.users userId (some u)) := by
  intro i v hv
  have hi : i ≠ userId := by
    rintro rfl
    rw [h] at hv
    cases hv
  exact ⟨v, by rw [Function.update_of_ne hi, hv], .refl v⟩

end Parts

/-! ## The stage -/

/-- A flow but for its stage, its organization and what it asks consent for. -/
structure LoginFlow.Same (f f' : LoginFlow) : Prop where
  acrValues : f'.request.acrValues = f.request.acrValues
  deviceCode : f'.request.deviceCode = f.request.deviceCode
  saml : f'.request.saml = f.request.saml
  sessionId : f'.sessionId = f.sessionId
  userId : f'.userId = f.userId
  amr : f'.amr = f.amr
  trustedDevice : f'.trustedDevice = f.trustedDevice
  riskStepUp : f'.riskStepUp = f.riskStepUp
  copied : f'.copied = f.copied

lemma LoginFlow.Same.refl (f : LoginFlow) : f.Same f := ⟨rfl, rfl, rfl, rfl, rfl, rfl, rfl, rfl, rfl⟩

lemma LoginFlow.Same.trans {f₁ f₂ f₃ : LoginFlow} (h : f₁.Same f₂) (h' : f₂.Same f₃) : f₁.Same f₃ :=
  ⟨h'.1.trans h.1, h'.2.trans h.2, h'.3.trans h.3, h'.4.trans h.4, h'.5.trans h.5, h'.6.trans h.6,
    h'.7.trans h.7, h'.8.trans h.8, h'.9.trans h.9⟩

lemma LoginFlow.Same.mfaRequired {f f' : LoginFlow} (h : f.Same f') (u : User) :
    mfaRequired T f' u = mfaRequired T f u := by
  rw [Login.mfaRequired, Login.mfaRequired, h.amr, h.acrValues, h.riskStepUp, h.trustedDevice]

variable {f : LoginFlow}

lemma User.Grows.mfaRequired {u u' : User} (h : u.Grows T u')
    (hf : mfaRequired T f u = true) : mfaRequired T f u' = true := by
  rw [Login.mfaRequired] at hf ⊢
  split_ifs at hf ⊢ with hamr hasked htrusted
  · rfl
  · exact h.mfa hf

/-- What `advance` has found when it comes to a stage. -/
structure Advanced (T : Tenant) (g : Store) (f : LoginFlow) (must : Bool) (g' : Store) (f' : LoginFlow) :
    Prop where
  alike : Alike T g g'
  users : g'.users = g.users
  same : f.Same f'
  start : f'.stage = .authenticate → f.userId = none ∨ f.sessionId = none
  stage : f'.stage ≠ .register ∧ f'.stage ≠ .verifyEmail
  mfa : f'.stage = .mfa → ∃ i u, f.userId = some i ∧ g.users i = some u ∧ mfaRequired T f u = true
  done : f'.stage = .done → must = false ∧ ∃ i u, f.userId = some i ∧ g.users i = some u ∧
    mfaRequired T f u = false ∧ missingRequired T u = [] ∧ owesTerms T u = false

lemma advanceConsent_spec (g : Store) (f : LoginFlow) (i : Uuid) : f.Same (advanceConsent g f i) ∧
    ((advanceConsent g f i).stage = .consent ∨ (advanceConsent g f i).stage = .done) := by
  rw [advanceConsent]
  split_ifs
  · exact ⟨⟨rfl, rfl, rfl, rfl, rfl, rfl, rfl, rfl, rfl⟩, .inl rfl⟩
  · exact ⟨⟨rfl, rfl, rfl, rfl, rfl, rfl, rfl, rfl, rfl⟩, .inr rfl⟩

/-- **What computing the stage does.** -/
lemma advance_spec {f f' : LoginFlow} {must : Bool}
    (h : advance T g f must = .ok (g', f')) : Advanced T g f must g' f' := by
  rw [advance.eq_def] at h
  split at h
  · next i sid huser hsession =>
      simp only [bind_eq_ok, Store.getUser, orError_eq_ok] at h
      obtain ⟨u, hu, h⟩ := h
      -- A stage that is come to before consent.
      have early : ∀ stage : FlowStage, (stage = .mfa → mfaRequired T f u = true) →
          (stage ≠ .authenticate ∧ stage ≠ .register ∧ stage ≠ .verifyEmail ∧ stage ≠ .done) →
          Except.ok (g, { f with stage := stage }) = (Except.ok (g', f') : Except AppError _) →
          Advanced T g f must g' f' := by
        rintro stage hmfa ⟨hstart, hregister, hverify, hdone⟩ h
        cases h
        exact ⟨.refl g, rfl, ⟨rfl, rfl, rfl, rfl, rfl, rfl, rfl, rfl, rfl⟩, fun hs => absurd hs hstart,
          ⟨hregister, hverify⟩, fun hs => ⟨i, u, huser, hu, hmfa hs⟩, fun hs => absurd hs hdone⟩
      split_ifs at h with hmust hmfa hprofile hterms
      · exact early .passwordChange (by simp) (by decide) h
      · exact early .mfa (fun _ => hmfa) (by decide) h
      · exact early .profile (by simp) (by decide) h
      · exact early .terms (by simp) (by decide) h
      · -- Everything before the organization has been asked.
        have late : ∀ (g₁ : Store) (f₁ : LoginFlow), Alike T g g₁ → g₁.users = g.users → f.Same f₁ →
            Except.ok (g₁, advanceConsent g₁ f₁ i) = (Except.ok (g', f') : Except AppError _) →
            Advanced T g f must g' f' := by
          intro g₁ f₁ halike husers hsame heq
          obtain ⟨hsame', hstage⟩ := advanceConsent_spec g₁ f₁ i
          simp only [Except.ok.injEq, Prod.mk.injEq] at heq
          obtain ⟨rfl, rfl⟩ := heq
          have hnot : ∀ stage : FlowStage, stage ≠ .consent ∧ stage ≠ .done →
              (advanceConsent g₁ f₁ i).stage ≠ stage := by
            rintro stage ⟨hconsent, hdone⟩ rfl
            rcases hstage with hstage | hstage
            · exact hconsent hstage
            · exact hdone hstage
          refine ⟨halike, husers, hsame.trans hsame', fun hs => absurd hs (hnot _ (by decide)),
            ⟨hnot _ (by decide), hnot _ (by decide)⟩, fun hs => absurd hs (hnot _ (by decide)),
            fun _ => ?_⟩
          refine ⟨by simpa using hmust, i, u, huser, hu, by simpa using hmfa, ?_, by simpa using hterms⟩
          simpa using hprofile
        split at h
        · exact early .organization (by simp) (by decide) h
        · exact late g f (.refl g) rfl (.refl f) h
        · next org _ =>
            exact late g { f with orgId := some org } (.refl g) rfl
              ⟨rfl, rfl, rfl, rfl, rfl, rfl, rfl, rfl, rfl⟩ h
        · next org _ =>
            refine late _ (bindOrganization g f org).2 (alike_bindOrganization f org) ?_
              ⟨rfl, rfl, rfl, rfl, rfl, rfl, rfl, rfl, rfl⟩ h
            rw [bindOrganization, hsession]
            rfl
  · next hnone =>
      cases h
      refine ⟨.refl g, rfl, ⟨rfl, rfl, rfl, rfl, rfl, rfl, rfl, rfl, rfl⟩, fun _ => ?_, by simp, by simp,
        by simp⟩
      cases huser : f.userId with
      | none => exact .inl rfl
      | some i =>
          cases hsession : f.sessionId with
          | none => exact .inr rfl
          | some sid => exact absurd hsession (hnone i sid huser)

/-! ## All that can happen -/

/-- Nothing comes about: sessions and flows may go, and attempts are counted. -/
structure Shrinks (T : Tenant) (g g' : Store) : Prop where
  users : UsersGrow T g.users g'.users
  sessions : ∀ i s, g'.sessions i = some s → g.sessions i = some s
  flows : ∀ i f', g'.flows i = some f' → ∃ f n, g.flows i = some f ∧ f' = { f with attempts := n }
  nextSession : g'.nextSession = g.nextSession

/-- The flow before its stage is computed, and the store: what a step of a flow has changed. -/
inductive Prepared (T : Tenant) (g : Store) (id : Uuid) (o : Origin) :
    Action → Store → LoginFlow → Bool → Prop
  | keeps {a : Action} {f f₁ : LoginFlow} {g₁ : Store} (hf : g.flows id = some f)
      (huser : f.userId.isSome) (halike : Alike T g g₁) (hsame : f.Same f₁) :
      Prepared T g id o a g₁ f₁ false
  | signsIn {f : LoginFlow} (factor : FirstFactor) (userId : Uuid) (u : User) (rememberDevice : Bool)
      (hf : g.flows id = some f) (hstart : factor.takenAt f userId = true)
      (hu : g.users userId = some u) (henabled : factor.enabled T = true)
      (hadmits : factor.admits u = true) 
      (hpassed : (assess T g userId u (factor.context o rememberDevice)).risk.action ≠ .block) :
      Prepared T g id o (.authenticate factor userId rememberDevice)
        (openSession T (g.recordAttempt o.ip true) f userId factor.amr (factor.context o rememberDevice)
          (assess T g userId u (factor.context o rememberDevice))).1
        (openSession T (g.recordAttempt o.ip true) f userId factor.amr (factor.context o rememberDevice)
          (assess T g userId u (factor.context o rememberDevice))).2
        (factor.mustChange T u g.now)
  | registers {f : LoginFlow} {g₀ : Store} (userId : Uuid) (u : User) (hf : g.flows id = some f)
      (hstart : f.stage = .authenticate ∨ f.stage = .register) (hnew : g.users userId = none)
      (hg₀ : g₀ = { g with users := Function.update g.users userId (some u) })
      (hpassed : (assess T g₀ userId u (FirstFactor.registered.context o false)).risk.action ≠ .block) :
      Prepared T g id o (.register userId u false)
        (openSession T (g₀.recordAttempt o.ip true) f userId FirstFactor.registered.amr
          (FirstFactor.registered.context o false)
          (assess T g₀ userId u (FirstFactor.registered.context o false))).1
        (openSession T (g₀.recordAttempt o.ip true) f userId FirstFactor.registered.amr
          (FirstFactor.registered.context o false)
          (assess T g₀ userId u (FirstFactor.registered.context o false))).2
        false
  | passes {f : LoginFlow} {g₀ : Store} (factor : SecondFactor) (enrols rememberDevice : Bool)
      (userId sessionId : Uuid) (s : SsoSession) (hf : g.flows id = some f) (halike : Alike T g g₀)
      (huser : f.userId = some userId) (hsession : f.sessionId = some sessionId)
      (hs : g₀.sessions sessionId = some s) (hsuser : s.userId = userId) :
      Prepared T g id o (.secondFactor factor enrols rememberDevice)
        (g₀.mapSession sessionId fun s =>
          s.refreshAuth g₀.now (addMethods f.amr factor.methods) (requestedMfaAcr f.request))
        { f with
          amr := addMethods f.amr factor.methods
          rememberDevice := (f.rememberDevice || rememberDevice) && !f.trustedDevice
          attempts := 0
          copied := some (s.writes + 1) }
        false

/-- All that can happen. -/
inductive Moves (T : Tenant) (g : Store) : Step → Store → Prop
  | shrinks {a : Step} {g' : Store} (h : Shrinks T g g') : Moves T g a g'
  | starts (req : AuthRequest) (o : Origin) (flow : LoginFlow)
      (hflow : (decide T g req o).flow req = some flow) : Moves T g (.authorize req o) (g.createFlow flow)
  | device {clientId : Uuid} {scopes : List String} {skipConsent : Bool} {deviceCode : String}
      {o : Origin} {g₁ : Store} {flow : LoginFlow}
      (h : deviceFlow T g (deviceRequest clientId scopes skipConsent deviceCode) o = .ok (g₁, flow)) :
      Moves T g (.verifyUserCode clientId scopes skipConsent deviceCode o) (g₁.createFlow flow)
  | waits {id userId : Uuid} {o : Origin} {u : User} {f : LoginFlow} (hf : g.flows id = some f)
      (hstart : f.stage = .authenticate ∨ f.stage = .register) (hnew : g.users userId = none) :
      Moves T g (.submit id o (.register userId u true))
        (Store.saveFlow { g with users := Function.update g.users userId (some u) } id
          { f with userId := some userId, stage := .verifyEmail })
  | advances {id : Uuid} {o : Origin} {a : Action} {g₁ g₂ : Store} {f₁ f₂ : LoginFlow} {must : Bool}
      (cookie : Option Uuid) (hprepared : Prepared T g id o a g₁ f₁ must)
      (hadvance : advance T g₁ f₁ must = .ok (g₂, f₂)) :
      Moves T g (.submit id o a) { g₂.saveFlow id f₂ with cookie := cookie }

section Saving

variable (g : Store) (id : Uuid) (f : LoginFlow)

@[simp] lemma saveFlow_users : (g.saveFlow id f).users = g.users := by
  rw [Store.saveFlow]
  split_ifs <;> rfl

@[simp] lemma saveFlow_sessions : (g.saveFlow id f).sessions = g.sessions := by
  rw [Store.saveFlow]
  split_ifs <;> rfl

@[simp] lemma saveFlow_nextSession : (g.saveFlow id f).nextSession = g.nextSession := by
  rw [Store.saveFlow]
  split_ifs <;> rfl

variable {g id f}

lemma saveFlow_flows (h : (g.saveFlow id f).flows i = some f') :
    f' = f ∨ g.flows i = some f' := by
  rw [Store.saveFlow] at h
  split_ifs at h
  · by_cases hi : i = id
    · subst hi
      simp only [Function.update_self] at h
      exact .inl (Option.some.inj h).symm
    · simp only [Function.update_of_ne hi] at h
      exact .inr h
  · exact .inr h

lemma createFlow_flows (h : (g.createFlow f).flows i = some f') :
    f' = { f with expiresAt := g.now + seconds FLOW_TTL_SECS } ∨ g.flows i = some f' := by
  by_cases hi : i = g.nextFlow
  · subst hi
    simp only [Store.createFlow, Function.update_self] at h
    exact .inl (Option.some.inj h).symm
  · simp only [Store.createFlow, Function.update_of_ne hi] at h
    exact .inr h

lemma deleteFlow_flows (h : (g.deleteFlow id).flows i = some f') :
    g.flows i = some f' := by
  by_cases hi : i = id
  · subst hi
    simp [Store.deleteFlow] at h
  · simpa only [Store.deleteFlow, Function.update_of_ne hi] using h

lemma getFlow_eq_ok (h : g.getFlow id = .ok f) : g.flows id = some f := by
  rw [Store.getFlow, orError_eq_ok] at h
  exact (Option.filter_eq_some_iff.mp h).1

end Saving

/-! ## Which of it a step does -/

lemma shrinks_deleteFlow (g : Store) (id : Uuid) : Shrinks T g (g.deleteFlow id) :=
  ⟨.refl _, fun _ _ h => h, fun _ f' h => ⟨f', f'.attempts, deleteFlow_flows h, rfl⟩, rfl⟩

lemma shrinks_attempt {g g₀ : Store} {id : Uuid} {n : ℕ} (halike : Alike T g g₀)
    (hsessions : g₀.sessions = g.sessions) (hf : g.flows id = some f) :
    Shrinks T g (g₀.saveFlow id { f with attempts := n }) where
  users := by
    rw [saveFlow_users]
    exact halike.users
  sessions i s h := by rwa [saveFlow_sessions, hsessions] at h
  flows i f' h := by
    rw [Store.saveFlow] at h
    split_ifs at h
    · by_cases hi : i = id
      · subst hi
        simp only [Function.update_self] at h
        exact ⟨f, n, hf, (Option.some.inj h).symm⟩
      · simp only [Function.update_of_ne hi, halike.flows] at h
        exact ⟨f', f'.attempts, h, rfl⟩
    · rw [halike.flows] at h
      exact ⟨f', f'.attempts, h, rfl⟩
  nextSession := by rw [saveFlow_nextSession, halike.nextSession]

lemma proceed_eq_ok {id : Uuid} (h : proceed T g id f = .ok g') :
    ∃ g₂ f₂, advance T g f false = .ok (g₂, f₂) ∧ g' = { g₂.saveFlow id f₂ with cookie := g₂.cookie } := by
  simp only [proceed, bind_eq_ok, Prod.exists] at h
  obtain ⟨g₂, f₂, hadvance, h⟩ := h
  cases h
  refine ⟨g₂, f₂, hadvance, ?_⟩
  rw [Store.saveFlow]
  split_ifs <;> rfl

lemma moves_of_proceed {g g₁ g' : Store} {id : Uuid} {o : Origin} {a : Action} {f f₁ : LoginFlow}
    (hf : g.flows id = some f) (huser : f.userId.isSome) (halike : Alike T g g₁) (hsame : f.Same f₁)
    (h : proceed T g₁ id f₁ = .ok g') : Moves T g (.submit id o a) g' := by
  obtain ⟨g₂, f₂, hadvance, rfl⟩ := proceed_eq_ok h
  exact .advances _ (.keeps hf huser halike hsame) hadvance

lemma user_eq_ok (h : f.user = .ok i) : f.userId = some i := by
  rwa [LoginFlow.user, orError_eq_ok] at h

lemma completeAuthentication_eq_ok {id userId : Uuid} {factor : FirstFactor} {ctx : RequestContext}
    (h : completeAuthentication T g id f userId u factor ctx = .ok g') :
    g' = (g.recordAttempt ctx.ip false).deleteFlow id ∨
    (assess T g userId u ctx).risk.action ≠ .block ∧ ∃ g₂ f₂, advance T
        (openSession T (g.recordAttempt ctx.ip true) f userId factor.amr ctx
          (assess T g userId u ctx)).1
        (openSession T (g.recordAttempt ctx.ip true) f userId factor.amr ctx
          (assess T g userId u ctx)).2 (factor.mustChange T u g.now) = .ok (g₂, f₂) ∧
      g' = { g₂.saveFlow id f₂ with cookie := f₂.sessionId } := by
  rw [completeAuthentication] at h
  simp only at h
  split_ifs at h with hblocked
  · cases h
    exact .inl rfl
  · simp only [bind_eq_ok, Prod.exists] at h
    obtain ⟨g₂, f₂, hadvance, h⟩ := h
    cases h
    exact .inr ⟨hblocked, g₂, f₂, hadvance, rfl⟩

section Actions

variable {g g' : Store} {id : Uuid} {o : Origin} {f : LoginFlow}

lemma moves_authenticate {factor : FirstFactor} {rememberDevice : Bool}
    (hf : g.flows id = some f) (h : authenticate T g id f factor userId o rememberDevice = .ok g') :
    Moves T g (.submit id o (.authenticate factor userId rememberDevice)) g' := by
  rw [authenticate] at h
  split_ifs at h with hstage henabled
  · cases h
  · cases h
  · simp only [bind_eq_ok, Store.getUser, orError_eq_ok] at h
    obtain ⟨u, hu, h⟩ := h
    split_ifs at h with hadmits
    rcases completeAuthentication_eq_ok h with rfl | ⟨hpassed, g₂, f₂, hadvance, rfl⟩
    · exact .shrinks ⟨.refl _, fun _ _ h => h,
        fun _ f' h => ⟨f', f'.attempts, deleteFlow_flows h, rfl⟩, rfl⟩
    · exact .advances _ (.signsIn factor userId u rememberDevice hf (by simpa using hstage) hu
        (by simpa using henabled) hadmits hpassed) hadvance

lemma moves_register {pending : Bool} (hf : g.flows id = some f)
    (h : registerStep T g id f userId u pending o = .ok g') :
    Moves T g (.submit id o (.register userId u pending)) g' := by
  rw [registerStep] at h
  split_ifs at h with hstage hnew hpending
  · cases h
  · cases h
    subst hpending
    exact .waits hf (by tauto) (Option.not_isSome_iff_eq_none.mp hnew)
  · obtain rfl : pending = false := by simpa using hpending
    have husers := Option.not_isSome_iff_eq_none.mp hnew
    rcases completeAuthentication_eq_ok h with rfl | ⟨hpassed, g₂, f₂, hadvance, rfl⟩
    · exact .shrinks ⟨usersGrow_insert husers, fun _ _ h => h,
        fun _ f' h => ⟨f', f'.attempts, deleteFlow_flows h, rfl⟩, rfl⟩
    · exact .advances _ (.registers userId u hf (by tauto) husers rfl hpassed) hadvance

lemma moves_passwordChange (hf : g.flows id = some f) (h : passwordChangeStep T g id f = .ok g') :
    Moves T g (.submit id o .passwordChange) g' := by
  rw [passwordChangeStep] at h
  split_ifs at h
  · cases h
  · obtain ⟨i, hi, h⟩ := bind_eq_ok.mp h
    refine moves_of_proceed hf (by rw [user_eq_ok hi]; rfl) (alike_mapUser fun u _ => ?_) (.refl f) h
    exact ⟨fun h => h, fun h => h, fun h => h⟩


lemma full_of_isNonEmpty {v : Value} (h : Users.isNonEmpty v = true) :
    (v != .null && v.asStr.all fun s => !(trim s).isEmpty) = true := by
  cases v <;> simp_all [Users.isNonEmpty, Value.asStr]

lemma missingRequired_of_validate {incoming v : Value} {editor : Users.Editor}
    {existing : Option Value}
    (h : Users.validateAttributes T.platform T.schema incoming editor existing = .ok v) :
    missingRequired T { u with attributes := v } = [] := by
  rw [Users.validateAttributes, Users.validateAttributesWith] at h
  split at h
  · cases h
  · simp only at h
    split_ifs at h with hnone
    cases h
    rw [List.isEmpty_iff, List.append_eq_nil_iff] at hnone
    have hall := List.filterMap_eq_nil_iff.mp hnone.2
    rw [missingRequired, List.filter_eq_nil_iff]
    intro d hd howed
    simp only [Bool.and_eq_true, Bool.not_eq_true', filled, Users.asObject, Option.getD_some] at howed
    have hfilled := hall d hd
    simp only [howed.1.1, true_and, ite_eq_right_iff, reduceCtorEq, imp_false, not_not] at hfilled
    obtain ⟨v, hv, hfull⟩ := (Option.any_eq_true _ _).mp hfilled
    rw [hv, Option.any_some] at howed
    rw [full_of_isNonEmpty hfull] at howed
    exact absurd howed.2 (by decide)

lemma moves_profile {attributes : Value} (hf : g.flows id = some f)
    (h : profileStep T g id f attributes = .ok g') : Moves T g (.submit id o (.profile attributes)) g' := by
  rw [profileStep] at h
  split_ifs at h
  · cases h
  · simp only [bind_eq_ok] at h
    obtain ⟨i, hi, u, hu, v, hv, h⟩ := h
    refine moves_of_proceed hf (by rw [user_eq_ok hi]; rfl) (alike_mapUser fun u' _ => ?_) (.refl f) h
    exact ⟨fun _ => missingRequired_of_validate hv, fun h => h, fun h => h⟩

lemma moves_terms {accepted : Bool} (hf : g.flows id = some f)
    (h : termsStep T g id f accepted = .ok g') : Moves T g (.submit id o (.terms accepted)) g' := by
  rw [termsStep] at h
  split_ifs at h
  · cases h
  · obtain ⟨i, hi, h⟩ := bind_eq_ok.mp h
    refine moves_of_proceed hf (by rw [user_eq_ok hi]; rfl) (alike_mapUser fun u _ => ?_) (.refl f) h
    exact ⟨fun h => h, fun _ => by simp [owesTerms], fun h => h⟩

lemma moves_organization {org : Uuid} (hf : g.flows id = some f)
    (h : organizationStep T g id f org = .ok g') : Moves T g (.submit id o (.organization org)) g' := by
  rw [organizationStep] at h
  split_ifs at h
  · cases h
  · obtain ⟨i, hi, h⟩ := bind_eq_ok.mp h
    simp only at h
    split_ifs at h
    · refine moves_of_proceed hf (by rw [user_eq_ok hi]; rfl) (alike_bindOrganization f org) ?_ h
      exact ⟨rfl, rfl, rfl, rfl, rfl, rfl, rfl, rfl, rfl⟩
    · cases h

lemma moves_consent {approve : Bool} {granted : Option (List String)} (hf : g.flows id = some f)
    (h : consentStep T g id f approve granted = .ok g') :
    Moves T g (.submit id o (.consent approve granted)) g' := by
  rw [consentStep] at h
  split_ifs at h
  · cases h
  · obtain ⟨i, -, h⟩ := bind_eq_ok.mp h
    cases h
    exact .shrinks ⟨.refl _, fun _ _ h => h, fun _ f' h => ⟨f', f'.attempts, h, rfl⟩, rfl⟩
  · obtain ⟨i, -, h⟩ := bind_eq_ok.mp h
    cases h
  · obtain ⟨i, hi, h⟩ := bind_eq_ok.mp h
    refine moves_of_proceed hf (by rw [user_eq_ok hi]; rfl) (alike_grant _ _ _) ?_ h
    exact ⟨rfl, rfl, rfl, rfl, rfl, rfl, rfl, rfl, rfl⟩

lemma mfaUser_eq_ok {r : Uuid × User} (h : mfaUser g f = .ok r) :
    f.stage = .mfa ∧ f.userId = some r.1 ∧ g.users r.1 = some r.2 := by
  rw [mfaUser] at h
  split_ifs at h with hstage
  · cases h
  · simp only [bind_eq_ok, Store.getUser, orError_eq_ok] at h
    obtain ⟨i, hi, u, hu, h⟩ := h
    split_ifs at h
    cases h
    exact ⟨not_not.mp hstage, user_eq_ok hi, hu⟩

lemma moves_secondFactor {factor : SecondFactor} {enrols rememberDevice : Bool}
    (hf : g.flows id = some f) (h : secondFactorStep T g id f factor enrols rememberDevice = .ok g') :
    Moves T g (.submit id o (.secondFactor factor enrols rememberDevice)) g' := by
  simp only [secondFactorStep, bind_eq_ok, passSecondFactor, orError_eq_ok] at h
  obtain ⟨⟨i, u⟩, hmfa, sid, hsession, s, hs, h⟩ := h
  obtain ⟨-, huser, -⟩ := mfaUser_eq_ok hmfa
  obtain ⟨hs, hsuser⟩ := Option.filter_eq_some_iff.mp hs
  obtain ⟨g₂, f₂, hadvance, rfl⟩ := proceed_eq_ok h
  refine .advances _ (.passes factor enrols rememberDevice i sid s hf ?_ huser hsession hs
    (by simpa using hsuser)) hadvance
  split_ifs
  · refine alike_mapUser fun u _ => ⟨fun h => h, fun h => h, fun h => ?_⟩
    rw [policyRequiresMfa] at h ⊢
    split at h <;> simp_all
  · exact .refl g

lemma moves_rejectSecond (hf : g.flows id = some f) (h : mfaReject g id f = .ok g') :
    Moves T g (.submit id o .rejectSecond) g' := by
  simp only [mfaReject, bind_eq_ok] at h
  obtain ⟨-, -, h⟩ := h
  split_ifs at h <;> cases h
  · exact .shrinks (shrinks_deleteFlow g id)
  · exact .shrinks (shrinks_attempt (.refl g) rfl hf)

lemma moves_reject {password : Bool} (hf : g.flows id = some f)
    (h : reject g id f o password = .ok g') : Moves T g (.submit id o (.reject password)) g' := by
  rw [reject] at h
  split_ifs at h with hstage hpassword
  · cases h
  · cases h
    exact .shrinks (shrinks_attempt (alike_recordAttempt _ _) rfl hf)
  · cases h
    exact .shrinks (shrinks_attempt (.refl g) rfl hf)

/-- **A step of a flow.** -/
lemma submit_moves {a : Action} (h : submit T g id o a = .ok g') : Moves T g (.submit id o a) g' := by
  obtain ⟨f, hf, h⟩ := bind_eq_ok.mp h
  have hflow := getFlow_eq_ok hf
  cases a with
  | authenticate => exact moves_authenticate hflow h
  | reject => exact moves_reject hflow h
  | register => exact moves_register hflow h
  | passwordChange => exact moves_passwordChange hflow h
  | profile => exact moves_profile hflow h
  | terms => exact moves_terms hflow h
  | organization => exact moves_organization hflow h
  | consent => exact moves_consent hflow h
  | secondFactor => exact moves_secondFactor hflow h
  | rejectSecond => exact moves_rejectSecond hflow h
  | cancel =>
      cases h
      exact .shrinks (shrinks_deleteFlow g id)

end Actions

lemma finish_eq_ok {id : Uuid} {answer : Answer} (h : finish T g id = .ok (g', answer)) :
    ∃ f sid s, g.flows id = some f ∧ f.stage = .done ∧ g.fromRequest = some (sid, s) ∧
      f.sessionId = some sid ∧ f.userId = some s.userId ∧ Shrinks T g g' ∧
      answer = if f.request.deviceCode.isSome then .approved else issueCode f.request sid s := by
  obtain ⟨f, hf, h⟩ := bind_eq_ok.mp h
  split at h
  · cases h
  · next hstage =>
      simp only [bind_eq_ok, orError_eq_ok, Prod.exists, Except.ok.injEq, Prod.mk.injEq] at h
      obtain ⟨sid, s, hs, rfl, rfl⟩ := h
      obtain ⟨hs, hmatch⟩ := Option.filter_eq_some_iff.mp hs
      simp only [Bool.and_eq_true, decide_eq_true_eq] at hmatch
      refine ⟨f, sid, s, getFlow_eq_ok hf, not_not.mp hstage, hs, hmatch.1, hmatch.2, ?_, rfl⟩
      split_ifs
      · exact ⟨.refl _, fun _ _ h => h, fun _ f' h => ⟨f', f'.attempts, deleteFlow_flows h, rfl⟩, rfl⟩
      · exact shrinks_deleteFlow g id

/-- **All that can happen** in one step. -/
theorem browser_moves {a : Step} (h : (browser T).step g a = some g') : Moves T g a g' := by
  obtain ⟨⟨g'', answer⟩, hrun, rfl⟩ := Option.map_eq_some_iff.mp h
  cases a with
  | tick d =>
      cases hrun
      exact .shrinks ⟨.refl _, fun _ _ h => h, fun _ f' h => ⟨f', f'.attempts, h, rfl⟩, rfl⟩
  | endSession i =>
      cases hrun
      refine .shrinks ⟨.refl _, fun j s h => ?_, fun _ f' h => ⟨f', f'.attempts, h, rfl⟩, rfl⟩
      by_cases hj : j = i
      · subst hj
        simp at h
      · simpa only [Function.update_of_ne hj] using h
  | dropFlow i =>
      cases hrun
      exact .shrinks (shrinks_deleteFlow g i)
  | forgetDevice =>
      cases hrun
      exact .shrinks ⟨.refl _, fun _ _ h => h, fun _ f' h => ⟨f', f'.attempts, h, rfl⟩, rfl⟩
  | authorize req o =>
      simp only [Step.run, Option.some.injEq, Prod.mk.injEq] at hrun
      obtain ⟨rfl, -⟩ := hrun
      rw [authorize]
      cases hflow : (decide T g req o).flow req with
      | some flow => exact .starts req o flow hflow
      | none =>
          have hstay : Shrinks T g g :=
            ⟨.refl _, fun _ _ h => h, fun _ f' h => ⟨f', f'.attempts, h, rfl⟩, rfl⟩
          cases decide T g req o <;> exact .shrinks hstay
  | verifyUserCode clientId scopes skipConsent deviceCode o =>
      simp only [Step.run, Option.map_eq_some_iff, toOption_eq_some, verifyUserCode] at hrun
      obtain ⟨r, hr, heq⟩ := hrun
      cases hflow : deviceFlow T g (deviceRequest clientId scopes skipConsent deviceCode) o with
      | error e =>
          rw [hflow] at hr
          cases hr
      | ok r' =>
          rw [hflow] at hr
          cases hr
          cases heq
          exact .device hflow
  | submit i o a =>
      simp only [Step.run, Option.map_eq_some_iff, toOption_eq_some] at hrun
      obtain ⟨g₁, hsubmit, heq⟩ := hrun
      cases heq
      exact submit_moves hsubmit
  | finish i =>
      simp only [Step.run, Option.map_eq_some_iff, toOption_eq_some] at hrun
      obtain ⟨⟨g₁, answer'⟩, hfinish, heq⟩ := hrun
      cases heq
      obtain ⟨_, _, _, _, _, _, _, _, hshrinks, _⟩ := finish_eq_ok hfinish
      exact .shrinks hshrinks

end Ridm.Login
