import Ridm.Login.Runs

/-!
# Codes of unfinished sign-ins

A flow opens its session with the first factor and walks the rest of the sign-in on it, so a browser that
abandons the flow holds a session that has not been through all of it.  `/authorize` asks such a session
for a password that is marked and for the second factor, and for nothing else: an expired password, the
profile and the terms are not looked at again.  The end of a flow asks nothing; its own stages have asked
for the profile and the terms, and what has changed in the meantime is not seen.

`codes_complete_iff` has the exact condition, over all runs.
-/

namespace Ridm.Login

variable {T : Tenant}

/-! ## What a sign-in owes -/

/-- Whether a trusted device waives what the policy demands of the sign-in: it is trusted, or it was when
the flow that ends signed in. -/
def Store.waived (g : Store) (userId : Uuid) : Step → Bool
  | .finish i => g.isTrusted userId || (g.flows i).any LoginFlow.trustedDevice
  | _ => g.isTrusted userId

/-- The password need not be changed. -/
def passwordStands (T : Tenant) (now : Instant) (u : User) : Bool :=
  !u.mustChangePassword && !expired T u now

/-- The second factor that the policy demands has been passed. -/
def factorPassed (T : Tenant) (g : Store) (a : Step) (u : User) (userId : Uuid) (amr : List String) : Bool :=
  !policyRequiresMfa T u || amr.contains "mfa" || g.waived userId a

/-- The required attributes are filled. -/
def profileFilled (T : Tenant) (u : User) : Bool := (missingRequired T u).isEmpty

/-- **Nothing is unfinished** of the sign-in a code comes from. -/
structure Complete (T : Tenant) (g : Store) (a : Step) (c : AuthCode) (u : User) : Prop where
  password : passwordStands T g.now u = true
  factor : factorPassed T g a u c.userId c.amr = true
  profile : profileFilled T u = true
  terms : owesTerms T u = false

/-- A step gives no code that comes from an unfinished sign-in. -/
def GivesComplete (T : Tenant) (g : Store) (a : Step) : Prop :=
  ∀ c ∈ a.code T g, ∃ u ∈ g.users c.userId, Complete T g a c u

/-- What the step itself does not ask of the browser's session and its user, and a code takes for granted:
of one straight from `/authorize`, and of one at the end of a flow. -/
def Granted (T : Tenant) (g : Store) : Step → Prop
  | .authorize _ _ => ∀ r ∈ g.fromRequest, ∀ u ∈ g.users r.2.userId,
      (u.mustChangePassword = true → T.password = true) ∧ expired T u g.now = false ∧
        profileFilled T u = true ∧ owesTerms T u = false
  | .finish i => ∀ r ∈ g.fromRequest, ∀ u ∈ g.users r.2.userId,
      passwordStands T g.now u = true ∧ factorPassed T g (.finish i) u r.2.userId r.2.amr = true
  | _ => True

/-! ## Flows that are done -/

/-- The user of a flow that is done has been asked for the profile and the terms. -/
def Store.Walked (T : Tenant) (g : Store) : Prop :=
  ∀ i f, g.flows i = some f → f.stage = .done →
    ∃ j u, f.userId = some j ∧ g.users j = some u ∧ missingRequired T u = [] ∧ owesTerms T u = false

section Walked

variable {g g' : Store} {a : Step}

lemma walked_grows {userId : Uuid} {u : User} (husers : UsersGrow T g.users g'.users)
    (hu : g.users userId = some u) (hprofile : missingRequired T u = []) (hterms : owesTerms T u = false) :
    ∃ u, g'.users userId = some u ∧ missingRequired T u = [] ∧ owesTerms T u = false := by
  obtain ⟨v, hv, hgrows⟩ := husers userId u hu
  exact ⟨v, hv, hgrows.profile hprofile, hgrows.terms hterms⟩

lemma Leaves.walked {f' : LoginFlow} (h : Leaves T g g' a f') (husers : UsersGrow T g.users g'.users)
    (hdone : f'.stage = .done) :
    ∃ j u, f'.userId = some j ∧ g'.users j = some u ∧ missingRequired T u = [] ∧ owesTerms T u = false := by
  cases h with
  | started req o hflow =>
      rcases decide_flow hflow with ⟨stage, hstage, rfl⟩ | ⟨id, s, _, _, hd⟩
      · rcases hstage with rfl | rfl <;> cases hdone
      · obtain ⟨_, _, _, _, hnot⟩ := hd.flow hflow
        exact absurd hdone hnot
  | device h =>
      rcases deviceFlow_eq_ok h with ⟨-, rfl⟩ | ⟨i, s, f₀, must, _, -, _, _, -, -, hadvanced⟩
      · cases hdone
      · obtain ⟨-, j, u, hj, hu, -, hprofile, hterms⟩ := hadvanced.done hdone
        obtain ⟨v, hv, h⟩ := walked_grows husers hu hprofile hterms
        exact ⟨j, v, hadvanced.same.userId.trans hj, hv, h⟩
  | waits => cases hdone
  | advanced _ hadvanced husers₂ _ =>
      obtain ⟨-, j, u, hj, hu, -, hprofile, hterms⟩ := hadvanced.done hdone
      refine ⟨j, u, hadvanced.same.userId.trans hj, ?_, hprofile, hterms⟩
      rw [husers₂, hadvanced.users]
      exact hu

/-- **The invariant's step.** -/
theorem walked_step (hg : g.Walked T) (h : (browser T).step g a = some g') : g'.Walked T := by
  have hmoves := browser_moves h
  intro i f' hf' hdone
  rcases hmoves.flows hf' with ⟨f, n, hf, rfl⟩ | hleaves
  · obtain ⟨j, u, hj, hu, hprofile, hterms⟩ := hg i f hf hdone
    obtain ⟨v, hv, h⟩ := walked_grows hmoves.users hu hprofile hterms
    exact ⟨j, v, hj, hv, h⟩
  · exact hleaves.walked hmoves.users hdone

end Walked

/-! ## Codes -/

section Codes

variable {g g' : Store} {a : Step} {as : List Step}

lemma givesComplete_of_code {c : AuthCode} {id : Uuid} {s : SsoSession} {u : User}
    (hc : a.code T g = some c) (hof : c.Of id s) (hu : g.users s.userId = some u)
    (h : Complete T g a c u ↔ Granted T g a) :
    GivesComplete T g a ↔ ((a.code T g).isSome → Granted T g a) := by
  rw [← h, GivesComplete, hc]
  constructor
  · intro h _
    obtain ⟨v, hv, hcomplete⟩ := h c rfl
    rw [hof.userId, hu] at hv
    obtain rfl : u = v := Option.some.inj hv
    exact hcomplete
  · intro h c' hc'
    obtain rfl : c = c' := Option.some.inj hc'
    exact ⟨u, by rw [hof.userId, hu]; rfl, h rfl⟩

lemma granted_authorize {req : AuthRequest} {o : Origin} {id : Uuid} {s : SsoSession} {u : User}
    (hs : g.fromRequest = some (id, s)) (hu : g.users s.userId = some u) :
    Granted T g (.authorize req o) ↔ (u.mustChangePassword = true → T.password = true) ∧
      expired T u g.now = false ∧ profileFilled T u = true ∧ owesTerms T u = false := by
  simp [Granted, hs, hu]

lemma granted_finish {i : Uuid} {id : Uuid} {s : SsoSession} {u : User}
    (hs : g.fromRequest = some (id, s)) (hu : g.users s.userId = some u) :
    Granted T g (.finish i) ↔
      passwordStands T g.now u = true ∧ factorPassed T g (.finish i) u s.userId s.amr = true := by
  simp [Granted, hs, hu]

/-- **A code is of a complete sign-in exactly when what its step does not ask is so.** -/
lemma givesComplete_iff (hg : g.Ordered) (hwalked : g.Walked T) :
    GivesComplete T g a ↔ ((a.code T g).isSome → Granted T g a) := by
  cases hc : a.code T g with
  | none => simp [GivesComplete, hc]
  | some c =>
      rw [← hc]
      rcases code_cases hc with ⟨req, o, id, s, rfl, hs, -, hdecided, -, hof⟩ |
        ⟨i, f, id, s, rfl, hf, hdone, hs, -, huser, -, -, hof⟩
      · cases hdecided with
        | code howed _ _ =>
            have hown := hg.own id s (fromRequest_eq_some hs).2
            obtain ⟨u, hu, hmust, -, -, hfactor⟩ := unfinishedStage_nothing hown howed
            refine givesComplete_of_code hc hof hu ?_
            rw [granted_authorize hs hu]
            constructor
            · rintro ⟨hpassword, -, hprofile, hterms⟩
              simp only [passwordStands, Bool.and_eq_true, Bool.not_eq_true'] at hpassword
              exact ⟨fun h => absurd (hpassword.1.symm.trans h) nofun, hpassword.2, hprofile, hterms⟩
            · rintro ⟨hmarked, hexpired, hprofile, hterms⟩
              refine ⟨?_, ?_, hprofile, hterms⟩
              · -- A session with a marked password owes the change where passwords are a way to sign in.
                have hunmarked : u.mustChangePassword = false := by
                  by_contra h
                  rw [Bool.not_eq_false] at h
                  exact absurd ((hmarked h).symm.trans (hmust h)) nofun
                simp [passwordStands, hunmarked, hexpired]
              · have hwaived : g.waived s.userId (.authorize req o) = g.isTrusted s.userId := rfl
                rw [factorPassed, hof.amr, hof.userId, hwaived]
                rcases hfactor with hamr | hpolicy | htrusted
                · simp [hamr]
                · simp [hpolicy]
                · simp [htrusted]
      · obtain ⟨j, u, hj, hu, hprofile, hterms⟩ := hwalked i f hf hdone
        obtain rfl : s.userId = j := Option.some.inj (huser.symm.trans hj)
        refine givesComplete_of_code hc hof hu ?_
        rw [granted_finish hs hu]
        constructor
        · rintro ⟨hpassword, hfactor, -, -⟩
          rw [hof.userId, hof.amr] at hfactor
          exact ⟨hpassword, hfactor⟩
        · rintro ⟨hpassword, hfactor⟩
          refine ⟨hpassword, ?_, by simp [profileFilled, hprofile], hterms⟩
          rw [hof.userId, hof.amr]
          exact hfactor

/-- **No code of an unfinished sign-in, exactly when** every step that gives one finds so what it does not
ask: a code straight from `/authorize` that the password has not expired, the profile is filled and the
terms are accepted, and that it is not marked where passwords are off; one at the end of a flow that the
password need not be changed and the second factor is passed still. -/
theorem codes_complete_iff (hstart : Started g) :
    (browser T).Meets (GivesComplete T) g as ↔
      (browser T).Meets (fun g a => (a.code T g).isSome → Granted T g a) g as := by
  have hinit : g.Ordered ∧ g.Walked T :=
    ⟨hstart.ordered, fun i f hf => absurd (hstart.flows i ▸ hf) nofun⟩
  have hstep : ∀ {g a g'}, g.Ordered ∧ g.Walked T → (browser T).step g a = some g' →
      g'.Ordered ∧ g'.Walked T := fun hg h => ⟨ordered_step hg.1 h, walked_step hg.2 h⟩
  constructor
  · intro h
    exact h.imp (fun hg _ => hstep hg) (fun hg => (givesComplete_iff hg.1 hg.2).mp) hinit
  · intro h
    exact h.imp (fun hg _ => hstep hg) (fun hg => (givesComplete_iff hg.1 hg.2).mpr) hinit

end Codes

/-! ## A sign-in that is abandoned -/

def termsTenant : Tenant := { sampleTenant with requireTerms := true }

def toTheTerms : List Step :=
  [.authorize sampleRequest {}, .submit 0 {} (.authenticate (.password false) 1 false)]

instance (T : Tenant) (g : Store) (a : Step) (c : AuthCode) (u : User) : Decidable (Complete T g a c u) :=
  decidable_of_iff (passwordStands T g.now u = true ∧ factorPassed T g a u c.userId c.amr = true ∧
      profileFilled T u = true ∧ owesTerms T u = false)
    ⟨fun ⟨h₁, h₂, h₃, h₄⟩ => ⟨h₁, h₂, h₃, h₄⟩, fun ⟨h₁, h₂, h₃, h₄⟩ => ⟨h₁, h₂, h₃, h₄⟩⟩

instance (T : Tenant) (g : Store) (a : Step) : Decidable (GivesComplete T g a) :=
  inferInstanceAs (Decidable (∀ c ∈ a.code T g, ∃ u ∈ g.users c.userId, Complete T g a c u))

instance (T : Tenant) (g : Store) (a : Step) : Decidable (Granted T g a) :=
  match a with
  | .authorize _ _ => inferInstanceAs (Decidable (∀ r ∈ g.fromRequest, ∀ u ∈ g.users r.2.userId,
      (u.mustChangePassword = true → T.password = true) ∧ _ ∧ _ ∧ _))
  | .finish _ => inferInstanceAs (Decidable (∀ r ∈ g.fromRequest, ∀ u ∈ g.users r.2.userId, _ ∧ _))
  | .tick _ | .endSession _ | .dropFlow _ | .forgetDevice | .verifyUserCode _ _ _ _ _
  | .submit _ _ _ => .isTrue trivial

/-- **A sign-in that accepts the terms** is complete at its code, and at the next one of its session. -/
theorem codes_complete_accepting :
    (codes termsTenant (.ofUser {})
      (toTheTerms ++ [.submit 0 {} (.terms true), .finish 0, .authorize sampleRequest {}])).length = 2 ∧
    (browser termsTenant).Meets (GivesComplete termsTenant) (.ofUser {})
      (toTheTerms ++ [.submit 0 {} (.terms true), .finish 0, .authorize sampleRequest {}]) :=
  ⟨by decide +kernel, (codes_complete_iff (started_ofUser {})).mpr (by decide +kernel)⟩

/-- **The terms are stepped around**: the flow is left where it asks for them, and the next `/authorize` of
the same browser gives a code. -/
theorem code_without_terms : Started (.ofUser {}) ∧
    codes termsTenant (.ofUser {}) (toTheTerms ++ [.authorize sampleRequest {}]) =
      [⟨5, 1, 0, ["openid"], 0, ["pwd"], some ACR_SINGLE, none⟩] ∧
    ((browser termsTenant).run (.ofUser {}) toTheTerms).any (fun g =>
      (g.users 1).any (owesTerms termsTenant)) = true ∧
    ¬ (browser termsTenant).Meets (GivesComplete termsTenant) (.ofUser {})
      (toTheTerms ++ [.authorize sampleRequest {}]) :=
  ⟨started_ofUser {}, by decide +kernel, by decide +kernel, by decide +kernel⟩

end Ridm.Login
