import Mathlib.Data.Fintype.Basic
import Ridm.Login.Runs

/-!
# The risk policy, after the sign-in

The risk policy is asked when a sign-in opens its session, and what it says is kept in a flag of the flow.
A session whose flow is abandoned has lost it: `/authorize` asks the policy afresh, without the signal of a
new device and with the location recorded already, and gives a code if it has nothing to say.  A flow that
is started for another reason, a password change or consent or another sign-in, does not have the flag
either.

`Asking` is the condition on the steps that meet such a session, and `risk_kept` the result for runs.
-/

namespace Ridm.Login

variable {T : Tenant}

/-! ## Sessions that owe a second factor -/

/-- The risk policy wants a second factor of the sign-in that opened the session, and none has been
passed. -/
def SsoSession.owing (s : SsoSession) : Bool := s.opening = .stepUp && !s.passed

/-- Whether what is answered in the end is a code. -/
def AuthRequest.forCode (r : AuthRequest) : Bool := r.deviceCode.isNone && !r.saml

/-- A step gives no code from a session whose sign-in the risk policy refuses, and none from one whose
sign-in it wants a second factor of before that has been passed. -/
def GivesStepped (T : Tenant) (g : Store) (a : Step) : Prop :=
  ∀ c ∈ a.code T g, ∀ s ∈ g.sessions c.sessionId,
    s.opening ≠ .block ∧ (s.opening = .stepUp → s.passed = true)

/-- A flow asks for a second factor whether or not it has the flag: the client or the policy wants one. -/
def asksAnyway (T : Tenant) (req : AuthRequest) (u : User) : Bool :=
  (requestedMfaClass req.acrValues).isSome || policyRequiresMfa T u

/-- `/authorize` finds something to ask of a session that has no second factor. -/
def AskedAgain (T : Tenant) (g : Store) (req : AuthRequest) (o : Origin) (s : SsoSession) (u : User) :
    Prop :=
  if u.mustChangePassword && T.password then "none" ∈ req.prompt ∨ asksAnyway T req u = true
  else
    (evaluate T u g.attempts g.now o.ip o.location false).action ≠ .allow ∨
    policyRequiresMfa T u = true ∧ g.isTrusted s.userId = false ∨ acrOk req s = false ∨
    pendingScopes g req s.userId ≠ [] ∧ ("none" ∈ req.prompt ∨ asksAnyway T req u = true)

/-- **What is still asked of a session that owes a second factor**: by `/authorize`, and by the flow of the
same user's next sign-in. -/
def Asking (T : Tenant) (g : Store) : Step → Prop
  | .authorize req o => req.saml = false → ∀ r ∈ g.fromRequest, r.2.owing = true →
      ∀ u ∈ g.users r.2.userId, Renews g req r.2 ∨ AskedAgain T g req o r.2 u
  | .submit id o (.authenticate factor userId remember) => ∀ f ∈ g.flows id, f.request.forCode = true →
      (factor.context o remember).cookies = true → ∀ r ∈ g.fromRequest, r.2.owing = true →
      r.2.userId = userId → ∀ u ∈ g.users userId,
        factor.takenAt f userId = true → factor.enabled T = true → factor.admits u = true →
          "mfa" ∈ factor.amr ∨ (requestedMfaClass f.request.acrValues).isSome ∨
          (assess T g userId u (factor.context o remember)).risk.action ≠ .allow ∨
          policyRequiresMfa T u = true ∧ g.isTrusted userId = false
  | _ => True

/-- A flow for a code, on a session that owes a second factor, asks for it before it is done. -/
def LoginFlow.Asks (T : Tenant) (f : LoginFlow) (g : Store) : Prop :=
  f.request.forCode = true → ∀ i s, f.sessionId = some i → g.sessions i = some s → s.owing = true →
    f.stage ≠ .done ∧ ∃ u, g.users s.userId = some u ∧ mfaRequired T f u = true

/-! ## The invariant -/

section Invariant

variable {g g' : Store} {a : Step}

variable {s : SsoSession} {f : LoginFlow} {req : AuthRequest} {u : User}

lemma owing_iff : s.owing = true ↔ s.opening = .stepUp ∧ s.passed = false := by
  simp [SsoSession.owing]

lemma SsoSession.owing_bare {s s' : SsoSession} (h : s'.bare = s.bare) : s'.owing = s.owing := by
  obtain ⟨-, -, -, hopening, hpassed, -⟩ := SsoSession.of_bare h
  rw [SsoSession.owing, SsoSession.owing, hopening, hpassed]

lemma Became.owing {i : Uuid} {s' : SsoSession} (h : Became T g a g' i s') (howing : s'.owing = true) :
    (∃ s, g.sessions i = some s ∧ s'.userId = s.userId ∧ s.owing = true) ∨ i = g.nextSession := by
  rw [owing_iff] at howing
  rcases h.kept with ⟨s, hs, huser, -, hopening, hpassed⟩ | ⟨⟨hi, -⟩, -⟩
  · refine .inl ⟨s, hs, huser, owing_iff.mpr ⟨hopening ▸ howing.1, ?_⟩⟩
    by_contra h
    exact absurd (howing.2.symm.trans (hpassed (Bool.not_eq_false _ ▸ h))) nofun
  · exact .inr hi

lemma LoginFlow.Asks.after (hf : f.Asks T g) (hbelongs : f.Belongs g) (hg : g.Owned)
    (h : Moves T g a g') : f.Asks T g' := by
  intro hcode i s' hi hs' howing
  rcases (h.became hg hs').owing howing with ⟨s, hs, huser, howing⟩ | rfl
  · obtain ⟨hstage, u, hu, hmfa⟩ := hf hcode i s hi hs howing
    obtain ⟨v, hv, hgrows⟩ := h.users _ u hu
    exact ⟨hstage, v, by rw [huser, hv], hgrows.mfaRequired hmfa⟩
  · exact absurd (hbelongs.below _ hi) (Nat.lt_irrefl _)

lemma Advanced.asks {g₁ g₂ : Store} {f₁ f₂ : LoginFlow} {must : Bool} (h : Advanced T g₁ f₁ must g₂ f₂)
    (hasks : f₁.request.forCode = true → ∀ i s, f₁.sessionId = some i → g₂.sessions i = some s →
      s.owing = true → f₁.userId = some s.userId ∧
        ∃ u, g₂.users s.userId = some u ∧ mfaRequired T f₁ u = true) : f₂.Asks T g₂ := by
  intro hcode i s hi hs howing
  have hcode' : f₁.request.forCode = true := by
    rw [AuthRequest.forCode] at hcode ⊢
    rwa [h.same.deviceCode, h.same.saml] at hcode
  obtain ⟨huser, u, hu, hmfa⟩ := hasks hcode' i s (h.same.sessionId ▸ hi) hs howing
  refine ⟨fun hdone => ?_, u, hu, (h.same.mfaRequired u).trans hmfa⟩
  obtain ⟨-, j, v, hj, hv, hnot, -⟩ := h.done hdone
  obtain rfl : s.userId = j := Option.some.inj (huser.symm.trans hj)
  rw [h.users] at hu
  obtain rfl : u = v := Option.some.inj (hu.symm.trans hv)
  exact absurd (hmfa.symm.trans hnot) nofun

lemma mfaRequired_iff : mfaRequired T f u = true ↔ "mfa" ∉ f.amr ∧
    (f.riskStepUp = true ∨ (requestedMfaClass f.request.acrValues).isSome ∨
      f.trustedDevice = false ∧ policyRequiresMfa T u = true) := by
  rw [mfaRequired]
  split_ifs with hamr hasked htrusted
  · simp [hamr]
  · simp only [Bool.or_eq_true] at hasked
    exact iff_of_true rfl ⟨hamr, hasked.symm.imp_right .inl⟩
  · simp only [Bool.or_eq_true, not_or] at hasked
    simp [hasked.1, hasked.2, htrusted]
  · simp only [Bool.or_eq_true, not_or] at hasked
    simp [hamr, hasked.1, hasked.2, htrusted]

lemma AskedAgain.of_nothing {o : Origin}
    (h : AskedAgain T g req o s u) (howed : unfinishedStage T g s o = .nothing)
    (hu : g.users s.userId = some u) (hamr : "mfa" ∉ s.amr) (hown : s.impersonated = false)
    (hacr : acrOk req s = true) :
    pendingScopes g req s.userId ≠ [] ∧ ("none" ∈ req.prompt ∨ asksAnyway T req u = true) := by
  obtain ⟨v, hv, hmust, hblock, hstep, hfactor⟩ := unfinishedStage_nothing hown howed
  obtain rfl : u = v := Option.some.inj (hu.symm.trans hv)
  have hnot : (u.mustChangePassword && T.password) = false := by
    cases hmarked : u.mustChangePassword with
    | false => rfl
    | true => simp [hmust hmarked]
  rw [AskedAgain, hnot, if_neg (by decide)] at h
  rcases h with hrisk | ⟨hpolicy, htrusted⟩ | h | h
  · -- The policy neither blocks nor steps up: it allows.
    cases haction : (evaluate T u g.attempts g.now o.ip o.location false).action with
    | allow => exact absurd haction hrisk
    | stepUp => exact absurd (hstep haction) hamr
    | block => exact absurd haction hblock
  · rcases hfactor with h | h | h
    · exact absurd h hamr
    · exact absurd (hpolicy.symm.trans h) nofun
    · exact absurd (htrusted.symm.trans h) nofun
  · exact absurd (hacr.symm.trans h) nofun
  · exact h

lemma Decided.asks {o : Origin} {id : Uuid} {d : Decision}
    (hd : Decided T g req o id s d) (hf : d.flow req = some f) (hu : g.users s.userId = some u)
    (hamr : "mfa" ∉ s.amr) (hown : s.impersonated = false) (hasked : AskedAgain T g req o s u) :
    mfaRequired T f u = true := by
  rw [mfaRequired_iff]
  cases hd with
  | resume howed hstage hprompt =>
      cases hf
      refine ⟨hamr, ?_⟩
      rcases unfinishedStage_step howed with rfl | ⟨rfl, -⟩ | ⟨rfl, v, hv, hmust, hpassword⟩
      · exact absurd rfl hstage
      · exact .inl rfl
      · obtain rfl : u = v := Option.some.inj (hu.symm.trans hv)
        rw [AskedAgain, hmust, hpassword, Bool.and_self, if_pos rfl] at hasked
        have hanyway := hasked.resolve_left hprompt
        rw [asksAnyway, Bool.or_eq_true] at hanyway
        exact .inr (hanyway.imp_right fun h => ⟨rfl, h⟩)
  | stepUp =>
      cases hf
      exact ⟨hamr, .inl rfl⟩
  | consent howed hacr hpending hprompt =>
      cases hf
      refine ⟨nofun, ?_⟩
      have hanyway := (hasked.of_nothing howed hu hamr hown hacr).2.resolve_left hprompt
      rw [asksAnyway, Bool.or_eq_true] at hanyway
      exact .inr (hanyway.imp_right fun h => ⟨rfl, h⟩)
  | code => cases hf

lemma decision_flow_request {d : Decision} (h : d.flow req = some f) :
    f.request = req := by
  cases d <;> cases h <;> rfl

lemma forCode_iff {r : AuthRequest} : r.forCode = true ↔ r.deviceCode = none ∧ r.saml = false := by
  simp [AuthRequest.forCode]

lemma Opened.asks {g₀ g₁ : Store} {f₁ : LoginFlow} {userId i : Uuid} {amr : List String}
    {cookies : Bool} {risk : RiskAction} (h : Opened g₀ userId amr cookies risk g₁ f₁)
    (hi : f₁.sessionId = some i) (hs : g₁.sessions i = some s) (howing : s.owing = true)
    (hamr : f₁.amr = amr) (hstep : f₁.riskStepUp = (risk = .stepUp : Bool))
    (hagain : cookies = true → ∀ t, g₀.fromRequest = some (i, t) → t.userId = userId → t.owing = true →
      "mfa" ∉ amr → mfaRequired T f₁ u = true) : mfaRequired T f₁ u = true := by
  rw [owing_iff] at howing
  cases h with
  | again id t acr hcookie hread huser hsessions _ hid _ =>
      obtain rfl : id = i := Option.some.inj (hid.symm.trans hi)
      rw [hsessions, Function.update_self, Option.some.injEq] at hs
      subst hs
      have hpassed : (t.passed || amr.contains "mfa") = false := howing.2
      rw [Bool.or_eq_false_iff] at hpassed
      exact hagain hread t hcookie huser (owing_iff.mpr ⟨howing.1, hpassed.1⟩)
        (by simpa using hpassed.2)
  | new t _ _ hopening hpassed _ _ hsessions _ hid _ =>
      obtain rfl : g₀.nextSession = i := Option.some.inj (hid.symm.trans hi)
      rw [hsessions, Function.update_self, Option.some.injEq] at hs
      subst hs
      rw [mfaRequired_iff, hamr, hstep, ← hopening, howing.1]
      rw [hpassed] at howing
      exact ⟨by simpa using howing.2, .inl rfl⟩

/-- **A flow that a step leaves on a session that owes a second factor asks for it.** -/
lemma Leaves.asks {f' : LoginFlow} (h : Leaves T g g' a f') (hg : g.Ordered) (hmoves : Moves T g a g')
    (hasks : ∀ i f, g.flows i = some f → f.Asks T g) (hasking : Asking T g a) : f'.Asks T g' := by
  cases h with
  | started req o hflow husers hsessions =>
      intro hcode i s hi hs howing
      rcases decide_flow hflow with ⟨stage, -, rfl⟩ | ⟨id, t, ht, hrenews, hd⟩
      · cases hi
      · obtain ⟨hsession, -, -, -, hnot⟩ := hd.flow hflow
        obtain rfl : id = i := Option.some.inj (hsession.symm.trans hi)
        have ht' := (fromRequest_eq_some ht).2
        rw [hsessions, ht'] at hs
        obtain rfl : t = s := Option.some.inj hs
        obtain ⟨u, hu⟩ := hg.owned id t ht'
        have hamr : "mfa" ∉ t.amr := fun h =>
          absurd ((owing_iff.mp howing).2.symm.trans (hg.passed id t ht' h)) (by decide)
        have hsaml : req.saml = false := by
          have hcode := (forCode_iff.mp hcode).2
          rwa [decision_flow_request hflow] at hcode
        have hasked := (hasking hsaml (id, t) ht howing u hu).resolve_left hrenews
        refine ⟨hnot, u, by rw [husers, hu], ?_⟩
        have hmfa := hd.asks hflow hu hamr (hg.own id t ht') hasked
        exact hmfa
  | device h =>
      intro hcode
      have hdevice := (forCode_iff.mp hcode).1
      rcases deviceFlow_eq_ok h with ⟨-, rfl⟩ | ⟨i, s, f₀, must, _, hrequest, -, -, -, -, hadvanced⟩
      · cases hdevice
      · have hdevice' := hadvanced.same.deviceCode.symm.trans hdevice
        rw [hrequest] at hdevice'
        cases hdevice'
  | waits userId hf hstart =>
      have hnone := (hg.flow _ _ hf).start hstart
      intro _ i s hi
      cases hnone.symm.trans hi
  | @advanced id o act g₁ g₂ f₁ f₂ must hprepared hadvanced husers hsessions =>
      suffices h : f'.Asks T g₂ by
        intro hcode i s hi hs howing
        rw [husers]
        exact h hcode i s hi (hsessions ▸ hs) howing
      refine hadvanced.asks fun hcode i s hi hs howing => ?_
      obtain ⟨s₁, hs₁, hbare⟩ := hadvanced.alike.session hs
      rw [SsoSession.owing_bare hbare] at howing
      rw [hadvanced.users, (SsoSession.of_bare hbare).1]
      -- A sign-in: the flow is its user's, and what is asked of him he is asked still.
      have signed : ∀ {g₀ : Store} {userId : Uuid} {u : User} {amr : List String} {cookies : Bool}
          {risk : RiskAction}, Opened g₀ userId amr cookies risk g₁ f₁ → f₁.userId = some userId →
          g₀.users userId = some u →
          UsersGrow T g₀.users g₁.users → mfaRequired T f₁ u = true →
          f₁.userId = some s₁.userId ∧
            ∃ u, g₁.users s₁.userId = some u ∧ mfaRequired T f₁ u = true := by
        intro g₀ userId u amr cookies risk hopened huser hu husers hmfa
        obtain ⟨j, t, hj, ht, htuser⟩ := hopened.session
        obtain rfl : j = i := Option.some.inj (hj.symm.trans hi)
        obtain rfl : t = s₁ := Option.some.inj (ht.symm.trans hs₁)
        obtain ⟨v, hv, hgrows⟩ := husers userId u hu
        exact ⟨by rw [huser, htuser], v, by rw [htuser, hv], hgrows.mfaRequired hmfa⟩
      cases hprepared with
      | @keeps _ f _ _ hf huser halike hsame =>
          obtain ⟨s₀, hs₀, hbare₀⟩ := halike.session hs₁
          have hi₀ := hsame.sessionId.symm.trans hi
          have hcode₀ : f.request.forCode = true := by
            rw [forCode_iff] at hcode ⊢
            rwa [hsame.deviceCode, hsame.saml] at hcode
          obtain ⟨-, u, hu, hmfa⟩ := hasks id f hf hcode₀ i s₀ hi₀ hs₀ (by
            rwa [SsoSession.owing_bare hbare₀] at howing)
          obtain ⟨v, hv, hgrows⟩ := halike.users _ u hu
          rw [(SsoSession.of_bare hbare₀).1, hsame.userId]
          exact ⟨(hg.flow id f hf).owner i s₀ hi₀ hs₀, v, hv,
            hgrows.mfaRequired ((hsame.mfaRequired u).trans hmfa)⟩
      | @signsIn f factor userId u rememberDevice hf hstart hu henabled hadmits hrisk =>
          have hopened := openSession_opened (T := T) (g.recordAttempt o.ip true) f userId factor.amr
            (factor.context o rememberDevice) (assess T g userId u (factor.context o rememberDevice))
          refine signed hopened rfl hu (openSession_users _ _ _ _ _ _) ?_
          refine hopened.asks hi hs₁ howing rfl rfl fun hread t ht htuser htowing hamr => ?_
          have hasked := hasking f hf hcode hread (i, t) ht htowing htuser u hu hstart henabled hadmits
          refine mfaRequired_iff.mpr ⟨hamr, ?_⟩
          rcases hasked with h | h | h | ⟨hpolicy, htrusted⟩
          · exact absurd h hamr
          · exact .inr (.inl h)
          · -- The policy has let the sign-in pass, and does not allow it as it is.
            refine .inl (decide_eq_true ?_)
            cases haction : (assess T g userId u (factor.context o rememberDevice)).risk.action with
            | allow => exact absurd haction h
            | stepUp => rfl
            | block => exact absurd haction hrisk
          · exact .inr (.inr ⟨Bool.and_eq_false_imp.mpr fun _ => htrusted, hpolicy⟩)
      | @registers f g₀ userId u hf hstart hnew hg₀ hrisk =>
          subst hg₀
          have hopened := openSession_opened (T := T) (Store.recordAttempt
            { g with users := Function.update g.users userId (some u) } o.ip true) f userId
            FirstFactor.registered.amr (FirstFactor.registered.context o false) (assess T
              { g with users := Function.update g.users userId (some u) } userId u
              (FirstFactor.registered.context o false))
          refine signed hopened rfl (u := u) (Function.update_self ..) (openSession_users _ _ _ _ _ _) ?_
          refine hopened.asks hi hs₁ howing rfl rfl fun _ t ht htuser _ _ => ?_
          exact absurd htuser (hg.owned.of_opened_again hnew ht)
      | passes factor enrols rememberDevice userId sessionId t hf halike huser hsession ht htuser =>
          obtain rfl : sessionId = i := Option.some.inj (hsession.symm.trans hi)
          rw [mapSession_eq_update ht, Function.update_self, Option.some.injEq] at hs₁
          subst hs₁
          have hmfa : ∀ amr, (addMethods amr factor.methods).contains "mfa" = true := fun amr => by
            simp [mem_addMethods]
          have hnot := (owing_iff.mp howing).2
          simp only [SsoSession.refreshAuth, hmfa, Bool.or_true] at hnot
          cases hnot

/-- Every flow asks for what its session owes. -/
def Store.AllAsk (T : Tenant) (g : Store) : Prop := ∀ i f, g.flows i = some f → f.Asks T g

/-- **The invariant's step.** -/
theorem allAsk_step (hg : g.Ordered) (hasks : g.AllAsk T) (hasking : Asking T g a)
    (h : (browser T).step g a = some g') : g'.AllAsk T := by
  have hmoves := browser_moves h
  intro i f' hf'
  rcases hmoves.flows hf' with ⟨f, n, hf, rfl⟩ | hleaves
  · exact (hasks i f hf).after (hg.flow i f hf) hg.owned hmoves
  · exact hleaves.asks hg hmoves hasks hasking

lemma givesStepped (hg : g.Ordered) (hasks : g.AllAsk T) (hasking : Asking T g a) : GivesStepped T g a := by
  intro c hc s hs
  have hbelongs : ∀ id t, g.fromRequest = some (id, t) → c.Of id t → g.sessions id = some t ∧ t = s := by
    intro id t ht hof
    have ht' := (fromRequest_eq_some ht).2
    rw [hof.sessionId, ht'] at hs
    exact ⟨ht', Option.some.inj hs⟩
  have stepped : s.owing = false → s.opening = .stepUp → s.passed = true := by
    intro h hopening
    simpa [SsoSession.owing, hopening] using h
  rcases code_cases hc with ⟨req, o, id, t, rfl, ht, hrenews, hdecided, hsaml, hof⟩ |
    ⟨i, f, id, t, rfl, hf, hdone, ht, hsession, huser, hdevice, hsaml, hof⟩
  · obtain ⟨ht', rfl⟩ := hbelongs id t ht hof
    refine ⟨hg.opening id t ht', stepped ?_⟩
    by_contra howing
    rw [Bool.not_eq_false] at howing
    obtain ⟨u, hu⟩ := hg.owned id t ht'
    have hamr : "mfa" ∉ t.amr := fun h =>
      absurd ((owing_iff.mp howing).2.symm.trans (hg.passed id t ht' h)) nofun
    have hasked := (hasking hsaml (id, t) ht howing u hu).resolve_left hrenews
    cases hdecided with
    | code howed hacr hpending =>
        exact (hasked.of_nothing howed hu hamr (hg.own id t ht') hacr).1 hpending
  · obtain ⟨ht', rfl⟩ := hbelongs id t ht hof
    refine ⟨hg.opening id t ht', stepped ?_⟩
    by_contra howing
    rw [Bool.not_eq_false] at howing
    exact (hasks i f hf (forCode_iff.mpr ⟨hdevice, hsaml⟩) id t hsession ht' howing).1 hdone

/-- **The risk policy's second factor comes first** in every run in which a session that owes it is still
asked for it: whenever the browser brings such a session to `/authorize`, there is a reason to ask that has
not been forgotten, and so with every other sign-in of its user.  A session that the policy refuses is
never opened. -/
theorem risk_kept {as : List Step} (hstart : Started g) (hmeets : (browser T).Meets (Asking T) g as) :
    (browser T).Meets (GivesStepped T) g as := by
  have hinit : g.Ordered ∧ g.AllAsk T :=
    ⟨hstart.ordered, fun i f hf => absurd (hstart.flows i ▸ hf) nofun⟩
  refine hmeets.imp (I := fun g => g.Ordered ∧ g.AllAsk T) ?_ ?_ hinit
  · intro g a g' hg hasking h
    exact ⟨ordered_step hg.1 h, allAsk_step hg.1 hg.2 hasking h⟩
  · intro g a hg hasking
    exact givesStepped hg.1 hg.2 hasking

end Invariant

/-! ## A new device -/

def riskTenant : Tenant := { sampleTenant with risk := { sampleTenant.risk with enabled := true } }

def travelled : User := { userAgents := [some "old"] }

def newBrowser : Origin := { userAgent := some "new" }

def toTheFactor : List Step :=
  [.authorize sampleRequest newBrowser, .submit 0 newBrowser (.authenticate (.password false) 1 false)]

instance (T : Tenant) (g : Store) (a : Step) : Decidable (GivesStepped T g a) :=
  inferInstanceAs (Decidable (∀ c ∈ a.code T g, ∀ s ∈ g.sessions c.sessionId, _ ∧ _))

instance (T : Tenant) (g : Store) (req : AuthRequest) (o : Origin) (s : SsoSession) (u : User) :
    Decidable (AskedAgain T g req o s u) := by
  unfold AskedAgain
  infer_instance

instance (T : Tenant) (g : Store) (a : Step) : Decidable (Asking T g a) := by
  cases a with
  | submit id o act => cases act <;> unfold Asking <;> infer_instance
  | _ =>
      unfold Asking
      infer_instance

/-- **A second factor that is passed** comes before the code, and the session gives another after it. -/
theorem risk_kept_passed :
    (codes riskTenant (.ofUser travelled) (toTheFactor ++ [.submit 0 newBrowser (.secondFactor .totp false false),
      .finish 0, .authorize sampleRequest newBrowser])).map AuthCode.amr =
        [["pwd", "otp", "mfa"], ["pwd", "otp", "mfa"]] ∧
    (browser riskTenant).Meets (GivesStepped riskTenant) (.ofUser travelled)
      (toTheFactor ++ [.submit 0 newBrowser (.secondFactor .totp false false), .finish 0,
        .authorize sampleRequest newBrowser]) :=
  ⟨by decide +kernel, risk_kept (started_ofUser travelled) (by decide +kernel)⟩

/-- **The risk policy is stepped around**: the flow is left where it asks for the second factor that the
policy wants of the new device, and the next `/authorize` of the same browser gives a code. -/
theorem code_before_second_factor : Started (.ofUser travelled) ∧
    codes riskTenant (.ofUser travelled) (toTheFactor ++ [.authorize sampleRequest newBrowser]) =
      [⟨5, 1, 0, ["openid"], 0, ["pwd"], some ACR_SINGLE, none⟩] ∧
    ((browser riskTenant).run (.ofUser travelled) toTheFactor).any (fun g =>
      (g.sessions 0).any SsoSession.owing && (g.flows 0).any fun f => f.stage = .mfa) = true ∧
    ¬ (browser riskTenant).Meets (GivesStepped riskTenant) (.ofUser travelled)
      (toTheFactor ++ [.authorize sampleRequest newBrowser]) :=
  ⟨started_ofUser travelled, by decide +kernel, by decide +kernel, by decide +kernel⟩

end Ridm.Login
