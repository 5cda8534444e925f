import Ridm.Login.Runs

/-!
# What a session says of its authentication

A flow has an `amr` of its own.  One that signs in, or goes on with a session at a step it owes, has what
the session has, and a second factor is written back with the flow's `amr` and the methods of the factor.
So evidence grows as long as the session has not been written since the flow took its own, which `copied`
and `writes` tell; a first factor replaces it, as a fresh authentication.

`evidence_grows` is about any state a run leads to.  A flow for consent takes nothing from its session.
-/

namespace Ridm.Login

variable {T : Tenant}

/-- A flow that took its `amr` from its session as the session stands has the same. -/
def LoginFlow.Copies (f : LoginFlow) (g : Store) : Prop :=
  ∀ i s n, f.sessionId = some i → g.sessions i = some s → f.copied = some n →
    n ≤ s.writes ∧ (n = s.writes → f.amr = s.amr)

/-- Evidence of a second factor is asked for again only for a class that is requested. -/
def LoginFlow.Spares (f : LoginFlow) : Prop :=
  f.stage = .mfa → "mfa" ∈ f.amr → (requestedMfaClass f.request.acrValues).isSome

section Invariant

variable {g g' : Store} {a : Step}

variable {f : LoginFlow} {s : SsoSession}

lemma LoginFlow.Copies.after (hf : f.Copies g) (hbelongs : f.Belongs g) (hg : g.Owned)
    (h : Moves T g a g') : f.Copies g' := by
  intro i s' n hi hs' hn
  have written : ∀ {s : SsoSession} {now : Instant} {amr : List String} {acr : String},
      g.sessions i = some s → s'.bare = (s.refreshAuth now amr acr).bare →
      n ≤ s'.writes ∧ (n = s'.writes → f.amr = s'.amr) := by
    intro s now amr acr hs hbare
    obtain ⟨-, -, -, -, -, hwrites⟩ := SsoSession.of_bare hbare
    have hle := (hf i s n hi hs hn).1
    have hwrites : s'.writes = s.writes + 1 := hwrites
    exact ⟨by omega, fun h => by omega⟩
  cases h.became hg hs' with
  | stays s hs hbare =>
      obtain ⟨-, hamr, -, -, -, hwrites⟩ := SsoSession.of_bare hbare
      rw [hwrites, hamr]
      exact hf i s n hi hs hn
  | again _ s acr hs _ hbare => exact written (fromRequest_eq_some hs).2 hbare
  | new hi' => exact absurd (hbelongs.below i hi) (hi' ▸ Nat.lt_irrefl _)
  | passes _ _ s now acr _ hs _ _ hbare => exact written hs hbare

lemma LoginFlow.copies_of_session {i : Uuid} (hi : f.sessionId = some i)
    (hs : g.sessions i = some s) (hamr : f.amr = s.amr) (hcopied : f.copied = some s.writes) :
    f.Copies g := by
  intro j t n hj ht hn
  obtain rfl : i = j := Option.some.inj (hi.symm.trans hj)
  obtain rfl : s = t := Option.some.inj (hs.symm.trans ht)
  obtain rfl : s.writes = n := Option.some.inj (hcopied.symm.trans hn)
  exact ⟨Nat.le_refl _, fun _ => hamr⟩

variable {req : AuthRequest} {f' : LoginFlow} {g₁ : Store} {d : Decision} {o : Origin}

lemma Opened.copies {userId : Uuid} {amr : List String} {cookies : Bool}
    {risk : RiskAction} {f₁ : LoginFlow} (h : Opened g userId amr cookies risk g₁ f₁)
    (hamr : f₁.amr = amr) : f₁.Copies g₁ := by
  cases h with
  | again id t acr _ _ _ hsessions _ hid hcopied =>
      refine LoginFlow.copies_of_session (s := t.refreshAuth g.now amr acr) hid ?_ hamr hcopied
      rw [hsessions, Function.update_self]
  | new t _ htamr _ _ _ hwrites hsessions _ hid hcopied =>
      refine LoginFlow.copies_of_session hid ?_ (hamr.trans htamr.symm) (hcopied.trans (by rw [hwrites]))
      rw [hsessions, Function.update_self]

lemma LoginFlow.Copies.alike {f f₁ : LoginFlow} (hf : f.Copies g) (halike : Alike T g g₁)
    (hsame : f.Same f₁) : f₁.Copies g₁ := by
  intro i s₁ n hi hs₁ hn
  obtain ⟨s, hs, hbare⟩ := halike.session hs₁
  obtain ⟨-, hamr, -, -, -, hwrites⟩ := SsoSession.of_bare hbare
  rw [hwrites, hamr, hsame.amr]
  exact hf i s n (hsame.sessionId ▸ hi) hs (hsame.copied ▸ hn)

lemma Decided.copies {id : Uuid} (hd : Decided T g req o id s d) (hf : d.flow req = some f)
    (hs : g.sessions id = some s) : f.Copies g := by
  cases hd with
  | resume =>
      cases hf
      exact LoginFlow.copies_of_session rfl hs rfl rfl
  | stepUp =>
      cases hf
      exact LoginFlow.copies_of_session rfl hs rfl rfl
  | consent =>
      cases hf
      exact nofun
  | code => cases hf

/-- **The flow a step leaves has what its session has**, or has not taken it. -/
lemma Leaves.copies (h : Leaves T g g' a f') (hg : g.Ordered)
    (hcopies : ∀ i f, g.flows i = some f → f.Copies g) : f'.Copies g' := by
  -- Only the sessions matter.
  have moved : ∀ {f : LoginFlow} {g₀ : Store}, g'.sessions = g₀.sessions → f.Copies g₀ → f.Copies g' := by
    intro f g₀ hsessions hf i s n hi hs hn
    exact hf i s n hi (hsessions ▸ hs) hn
  cases h with
  | started req o hflow husers hsessions =>
      rcases decide_flow hflow with ⟨stage, -, rfl⟩ | ⟨id, s, hs, -, hd⟩
      · exact nofun
      · have hf := hd.copies hflow (fromRequest_eq_some hs).2
        exact moved hsessions hf
  | device h hsessions =>
      rcases deviceFlow_eq_ok h with ⟨-, rfl⟩ | ⟨i, s, f₀, must, hs, -, hi, -, hamr, hcopied, hadvanced⟩
      · exact nofun
      · have hf := (LoginFlow.copies_of_session hi (fromRequest_eq_some hs).2 hamr hcopied).alike
          hadvanced.alike hadvanced.same
        exact moved hsessions hf
  | waits userId hf hstart =>
      have hnone := (hg.flow _ _ hf).start hstart
      intro i s n hi
      exact absurd (hnone.symm.trans hi) nofun
  | @advanced id o act g₁ g₂ f₁ f₂ must hprepared hadvanced husers hsessions =>
      refine moved hsessions (LoginFlow.Copies.alike (f := f₁) (g := g₁) ?_ hadvanced.alike hadvanced.same)
      cases hprepared with
      | keeps hf _ halike hsame => exact (hcopies _ _ hf).alike halike hsame
      | signsIn => exact (openSession_opened ..).copies rfl
      | registers => exact (openSession_opened ..).copies rfl
      | @passes f g₀ factor enrols rememberDevice userId sessionId s hf halike _ hsession hs _ =>
          refine LoginFlow.copies_of_session (s := s.refreshAuth g₀.now (addMethods f.amr factor.methods)
            (requestedMfaAcr f.request)) hsession ?_ rfl rfl
          rw [mapSession_eq_update hs, Function.update_self]

/-- A flow that asks for a second factor although it has evidence of one is for a class that is
requested. -/
lemma Decided.spares {id : Uuid}
    (hd : Decided T g req o id s d) (hf : d.flow req = some f) : f.Spares := by
  cases hd with
  | resume howed hstage _ =>
      cases hf
      intro hmfa hamr
      rcases unfinishedStage_step howed with h | ⟨-, hnot⟩ | ⟨h, -⟩
      · exact absurd h hstage
      · exact absurd hamr hnot
      · exact absurd (h.symm.trans hmfa) nofun
  | stepUp _ hacr =>
      cases hf
      intro _ _
      rw [acrOk, Bool.or_eq_false_iff] at hacr
      simpa using hacr.1
  | consent =>
      cases hf
      exact nofun
  | code => cases hf

lemma Advanced.spares {g₁ g₂ : Store} {f₁ f₂ : LoginFlow} {must : Bool}
    (h : Advanced T g₁ f₁ must g₂ f₂) : f₂.Spares := by
  intro hmfa hamr
  obtain ⟨_, u, -, -, hasked⟩ := h.mfa hmfa
  rw [mfaRequired, ← h.same.amr, if_pos hamr] at hasked
  cases hasked

lemma Leaves.spares (h : Leaves T g g' a f') : f'.Spares := by
  cases h with
  | started req o hflow =>
      rcases decide_flow hflow with ⟨stage, hstage, rfl⟩ | ⟨id, s, _, -, hd⟩
      · intro hmfa
        rcases hstage with rfl | rfl <;> cases hmfa
      · have hf := hd.spares hflow
        exact hf
  | device h =>
      rcases deviceFlow_eq_ok h with ⟨-, rfl⟩ | ⟨_, _, _, _, _, -, -, -, -, -, hadvanced⟩
      · exact nofun
      · have hf := hadvanced.spares
        exact hf
  | waits => exact nofun
  | advanced _ hadvanced => exact hadvanced.spares

/-- Every flow has what its session has, if it has taken it, and is spared what it has evidence of. -/
def Store.Evident (g : Store) : Prop := ∀ i f, g.flows i = some f → f.Copies g ∧ f.Spares

/-- **The invariant's step.** -/
theorem evident_step (hg : g.Ordered) (hevident : g.Evident) (h : (browser T).step g a = some g') :
    g'.Evident := by
  have hmoves := browser_moves h
  intro i f' hf'
  rcases hmoves.flows hf' with ⟨f, n, hf, rfl⟩ | hleaves
  · exact ⟨(hevident i f hf).1.after (hg.flow i f hf) hg.owned hmoves, (hevident i f hf).2⟩
  · exact ⟨hleaves.copies hg fun i f hf => (hevident i f hf).1, hleaves.spares⟩

lemma evident_run {as : List Step} (hstart : Started g) (hrun : (browser T).run g as = some g') :
    g'.Ordered ∧ g'.Evident := by
  refine Machine.run_inv (I := fun g => g.Ordered ∧ g.Evident) (C := fun _ _ => True) ?_
    (Machine.meets_of_forall (fun _ _ => trivial) g as) hrun
    ⟨hstart.ordered, fun i f hf => absurd (hstart.flows i ▸ hf) nofun⟩
  exact fun hg _ h => ⟨ordered_step hg.1 h, evident_step hg.1 hg.2 h⟩

end Invariant

/-! ## Evidence -/

/-- The user of the browser's session `i` has signed in to it again, and its `amr` is the first factor's. -/
def SignsInAgain (g : Store) (a : Step) (i : Uuid) (s s' : SsoSession) : Prop :=
  ∃ flow o factor rememberDevice, a = .submit flow o (.authenticate factor s.userId rememberDevice) ∧
    g.cookie = some i ∧ s'.amr = factor.amr

/-- A second factor on the session `i`, in a flow that does not have the session's `amr` as it stands: it has
never taken it, or the session has been written since. -/
def PassesApart (g : Store) (a : Step) (i : Uuid) (s : SsoSession) : Prop :=
  ∃ flow o factor enrols rememberDevice f,
    a = .submit flow o (.secondFactor factor enrols rememberDevice) ∧ g.flows flow = some f ∧
      f.sessionId = some i ∧ f.copied ≠ some s.writes

/-- **Evidence grows**, in any state that a run leads to: a step leaves a session every method it had, or is
another sign-in of its user, with that first factor's methods, or a second factor in a flow without the
session's methods.  And a flow that has them is not asked for a second factor where they say that one has
been passed, but for a class the client requests. -/
theorem evidence_grows {g₀ g g' : Store} {as : List Step} {a : Step} (hstart : Started g₀)
    (hrun : (browser T).run g₀ as = some g) (hstep : (browser T).step g a = some g') :
    (∀ i s s', g.sessions i = some s → g'.sessions i = some s' →
      s.amr ⊆ s'.amr ∨ SignsInAgain g a i s s' ∨ PassesApart g a i s) ∧
    ∀ j f i s, g.flows j = some f → f.sessionId = some i → g.sessions i = some s →
      f.copied = some s.writes → "mfa" ∈ s.amr → f.stage = .mfa →
      (requestedMfaClass f.request.acrValues).isSome := by
  obtain ⟨hg, hevident⟩ := evident_run hstart hrun
  constructor
  · intro i s s' hs hs'
    cases (browser_moves hstep).became hg.owned hs' with
    | stays t ht hbare =>
        obtain rfl : s = t := Option.some.inj (hs.symm.trans ht)
        rw [(SsoSession.of_bare hbare).2.1]
        exact .inl (List.Subset.refl _)
    | again ha t acr ht huser hbare =>
        obtain ⟨hcookie, ht⟩ := fromRequest_eq_some ht
        obtain rfl : s = t := Option.some.inj (hs.symm.trans ht)
        subst huser
        exact .inr (.inl ⟨_, _, _, _, ha, hcookie, (SsoSession.of_bare hbare).2.1⟩)
    | new hi => exact absurd (hg.below i s hs) (hi ▸ Nat.lt_irrefl _)
    | passes ha f t now acr hf ht hsession _ hbare =>
        obtain rfl : s = t := Option.some.inj (hs.symm.trans ht)
        by_cases hcopied : f.copied = some s.writes
        · left
          have hsame := ((hevident _ f hf).1 i s s.writes hsession hs hcopied).2 rfl
          rw [(SsoSession.of_bare hbare).2.1]
          exact fun m hm => mem_addMethods.mpr (.inl (hsame ▸ hm))
        · exact .inr (.inr ⟨_, _, _, _, _, f, ha, hf, hsession, hcopied⟩)
  · intro j f i s hf hi hs hcopied hmfa hstage
    obtain ⟨hcopies, hspares⟩ := hevident j f hf
    exact hspares hstage (((hcopies i s s.writes hi hs hcopied).2 rfl).symm ▸ hmfa)

/-! ## A second sign-in -/

def aroundLast (T : Tenant) (as : List Step) (a : Step) : Option (List String × List String) := do
  let g ← (browser T).run (.ofUser {}) as
  let s ← g.sessions 0
  let g' ← (browser T).step g a
  let s' ← g'.sessions 0
  some (s.amr, s'.amr)

lemma aroundLast_eq_some (T : Tenant) (as : List Step) (a : Step) {r : List String × List String}
    (h : aroundLast T as a = some r) : ∃ g g' s s', (browser T).run (.ofUser {}) as = some g ∧
      (browser T).step g a = some g' ∧ g.sessions 0 = some s ∧ g'.sessions 0 = some s' ∧
      s.amr = r.1 ∧ s'.amr = r.2 := by
  simp only [aroundLast, bind, Option.bind_eq_some_iff, Option.some.injEq] at h
  obtain ⟨g, hrun, s, hs, g', hstep, s', hs', rfl⟩ := h
  exact ⟨g, g', s, s', hrun, hstep, hs, hs', rfl, rfl⟩

def mfaRequest : AuthRequest := { sampleRequest with acrValues := [ACR_MFA] }

def toTheClass : List Step :=
  [.authorize mfaRequest {}, .submit 0 {} (.authenticate (.password false) 1 false)]

def toTheCode : List Step := [.submit 0 {} (.secondFactor .totp false false), .finish 0]

/-- A second factor adds to what the session says. -/
theorem evidence_grows_factor :
    ∃ g g' s s', (browser sampleTenant).run (.ofUser {}) toTheClass = some g ∧
      (browser sampleTenant).step g (.submit 0 {} (.secondFactor .totp false false)) = some g' ∧
      g.sessions 0 = some s ∧ g'.sessions 0 = some s' ∧ s.amr = ["pwd"] ∧ s'.amr = ["pwd", "otp", "mfa"] ∧
      (s.amr ⊆ s'.amr ∨ SignsInAgain g (.submit 0 {} (.secondFactor .totp false false)) 0 s s' ∨
        PassesApart g (.submit 0 {} (.secondFactor .totp false false)) 0 s) := by
  obtain ⟨g, g', s, s', hrun, hstep, hs, hs', hamr, hamr'⟩ := aroundLast_eq_some sampleTenant
    toTheClass (.submit 0 {} (.secondFactor .totp false false))
    (r := (["pwd"], ["pwd", "otp", "mfa"])) (by decide +kernel)
  exact ⟨g, g', s, s', hrun, hstep, hs, hs', hamr, hamr',
    (evidence_grows (started_ofUser {}) hrun hstep).1 0 s s' hs hs'⟩

/-- **Signing in again takes evidence away**: the client has had its second factor, the user is made to
sign in again, and the session says no more than the password. -/
theorem second_sign_in_replaces : Started (.ofUser {}) ∧
    ∃ g g' s s', (browser sampleTenant).run (.ofUser {})
        (toTheClass ++ toTheCode ++ [.authorize { sampleRequest with prompt := ["login"] } {}]) = some g ∧
      (browser sampleTenant).step g (.submit 1 {} (.authenticate (.password false) 1 false)) = some g' ∧
      g.sessions 0 = some s ∧ g'.sessions 0 = some s' ∧ s.amr = ["pwd", "otp", "mfa"] ∧
      s'.amr = ["pwd"] ∧ ¬ s.amr ⊆ s'.amr := by
  refine ⟨started_ofUser {}, ?_⟩
  obtain ⟨g, g', s, s', hrun, hstep, hs, hs', hamr, hamr'⟩ := aroundLast_eq_some sampleTenant
    (toTheClass ++ toTheCode ++ [.authorize { sampleRequest with prompt := ["login"] } {}])
    (.submit 1 {} (.authenticate (.password false) 1 false))
    (r := (["pwd", "otp", "mfa"], ["pwd"])) (by decide +kernel)
  refine ⟨g, g', s, s', hrun, hstep, hs, hs', hamr, hamr', ?_⟩
  rw [hamr, hamr']
  decide

end Ridm.Login
