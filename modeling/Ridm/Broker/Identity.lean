import Ridm.Broker.Model

/-!
# Where an upstream identity comes from

Two sign-ins that differ only in the `user` parameter the browser sends collect claims that differ
only at `user`.  Before userinfo they are `Alike`: what the browser put there is an object, so only
a mapper that descends into it sees a difference.  Userinfo may bring a `user` of its own, which
takes the place the browser left free; from then on the claims only `AgreeOff` `user`.

So the established subject, email and verification, and the account they lead to, never depend on
the browser when the provider's mappers do not reach into that difference
(`BrowserBlind.providerOnly`).
-/

namespace Ridm.Broker

/-- **The documented behaviour of `jsonwebtoken` that `prove` relies on**: a decoded token has the
claims the validation requires, and its `sub` is a string. -/
structure Platform.Lawful (p : Platform) : Prop where
  required : ∀ {now token key alg clientId claims},
    p.decode now token key (validation alg clientId) = .ok claims →
      ∀ name ∈ ["exp", "iss", "sub", "aud"], claims.get name ≠ none
  subject : ∀ {now token key alg clientId claims},
    p.decode now token key (validation alg clientId) = .ok claims →
      ∃ s, claims.get "sub" = some (.string s)

/-! ## Claims that differ at `user` -/

/-- The maps have the same claims, `user` apart. -/
def AgreeOff (m₁ m₂ : Members) : Prop := ∀ k, k ≠ "user" → m₁.get k = m₂.get k

/-- Nothing, or an object. -/
def NoScalar (v : Option Value) : Prop := v = none ∨ ∃ m, v = some (.object m)

/-- The maps have the same claims, but for objects at `user`. -/
def Alike (m₁ m₂ : Members) : Prop :=
  AgreeOff m₁ m₂ ∧
    (m₁.get "user" = m₂.get "user" ∨ NoScalar (m₁.get "user") ∧ NoScalar (m₂.get "user"))

variable {idp : IdentityProvider} {m₁ m₂ : Members} {p : Platform} {x : Exchange} {path : String}

lemma AgreeOff.insert (h : AgreeOff m₁ m₂) (k : String) (v : Value) :
    AgreeOff (m₁.insert k v) (m₂.insert k v) := by
  intro j hj
  rw [Members.get_insert, Members.get_insert, h j hj]

lemma AgreeOff.orInsert (h : AgreeOff m₁ m₂) (k : String) (v : Value) :
    AgreeOff (m₁.orInsert k v) (m₂.orInsert k v) := by
  intro j hj
  rw [Members.get_orInsert, Members.get_orInsert, h j hj]
  by_cases hk : k = j
  · subst hk
    rw [h k hj]
  · simp [hk]

lemma AgreeOff.fillFrom (h : AgreeOff m₁ m₂) (vs : Option String)
    (m : Members) : AgreeOff (fillFrom vs m₁ m) (fillFrom vs m₂ m) := by
  induction m generalizing m₁ m₂ with
  | nil => exact h
  | cons e m ih =>
      simp only [Broker.fillFrom, List.foldl_cons] at ih ⊢
      by_cases hsub : vs.isSome = true ∧ e.1 = "sub"
      · simp only [if_pos hsub]
        exact ih h
      · simp only [if_neg hsub]
        exact ih (h.orInsert e.1 e.2)

lemma AgreeOff.githubPrimaryEmail (h : AgreeOff m₁ m₂) (x : Exchange) (endpoint token : String) :
    AgreeOff (githubPrimaryEmail x endpoint token m₁) (githubPrimaryEmail x endpoint token m₂) := by
  rw [Broker.githubPrimaryEmail, Broker.githubPrimaryEmail]
  split
  · split
    · exact (h.insert _ _).insert _ _
    · exact h
  · exact h

lemma Alike.insert (h : Alike m₁ m₂) (k : String) (v : Value) :
    Alike (m₁.insert k v) (m₂.insert k v) := by
  refine ⟨h.1.insert k v, ?_⟩
  rw [Members.get_insert, Members.get_insert]
  by_cases hk : k = "user"
  · simp [hk]
  · simpa [hk] using h.2

lemma Alike.insertAll (h : Alike m₁ m₂) (m : Members) :
    Alike (insertAll m₁ m) (insertAll m₂ m) := by
  induction m generalizing m₁ m₂ with
  | nil => exact h
  | cons e m ih => exact ih (h.insert e.1 e.2)

lemma get_insertAll_eq_none {c m : Members} {k : String} :
    (insertAll c m).get k = none ↔ c.get k = none ∧ m.get k = none := by
  induction m generalizing c with
  | nil => simp [insertAll]
  | cons e m ih =>
      obtain ⟨j, v⟩ := e
      have hstep : insertAll c ((j, v) :: m) = insertAll (c.insert j v) m := rfl
      rw [hstep, ih, Members.get_insert, Members.get_cons]
      by_cases hj : j = k <;> simp [hj]

lemma browserClaims_get (p : Platform) (u : Option String) :
    AgreeOff (browserClaims p u) [] ∧ NoScalar ((browserClaims p u).get "user") := by
  rw [browserClaims]
  split
  · rename_i m _
    refine ⟨fun k hk => ?_, Or.inr ⟨m, by simp [Members.get_insert]⟩⟩
    rw [Members.get_insert, if_neg (Ne.symm hk)]
  · exact ⟨fun _ _ => rfl, Or.inl rfl⟩

lemma browserClaims_alike (p : Platform) (u₁ u₂ : Option String) :
    Alike (browserClaims p u₁) (browserClaims p u₂) := by
  obtain ⟨hagree₁, huser₁⟩ := browserClaims_get p u₁
  obtain ⟨hagree₂, huser₂⟩ := browserClaims_get p u₂
  exact ⟨fun k hk => (hagree₁ k hk).trans (hagree₂ k hk).symm, Or.inr ⟨huser₁, huser₂⟩⟩

/-! ## Mappers -/

/-- The mapper reads the claim `user`, or into it. -/
def ReadsUser (path : String) : Prop := (split path '.').head? = some "user"

def Descends (path : String) : Prop := 1 < (split path '.').length

instance (path : String) : Decidable (ReadsUser path) := inferInstanceAs (Decidable (_ = _))

instance (path : String) : Decidable (Descends path) := inferInstanceAs (Decidable (_ < _))

lemma split_eq_cons (path : String) (c : Char) : ∃ first parts, split path c = first :: parts := by
  cases h : split path c with
  | nil => simp [split] at h
  | cons first parts => exact ⟨first, parts, rfl⟩

lemma AgreeOff.claim_eq (h : AgreeOff m₁ m₂)
    (hpath : ¬ ReadsUser path) : claim m₁ path = claim m₂ path := by
  obtain ⟨first, parts, hsplit⟩ := split_eq_cons path '.'
  rw [ReadsUser, hsplit, List.head?_cons, Option.some.injEq] at hpath
  simp only [claim, hsplit, h first hpath]

lemma claim_user {m : Members} (huser : ReadsUser path) (hflat : ¬ Descends path) :
    claim m path = m.get "user" := by
  obtain ⟨first, parts, hsplit⟩ := split_eq_cons path '.'
  rw [ReadsUser, hsplit, List.head?_cons, Option.some.injEq] at huser
  rw [Descends, hsplit, List.length_cons] at hflat
  obtain rfl : parts = [] := List.length_eq_zero_iff.mp (by omega)
  simp [claim, hsplit, huser]

/-- A mapper that does not descend into `user` sees, in claims that are alike, the same or no
scalar. -/
lemma Alike.claim_eq (h : Alike m₁ m₂) (hpath : ¬ (ReadsUser path ∧ Descends path)) :
    claim m₁ path = claim m₂ path ∨ NoScalar (claim m₁ path) ∧ NoScalar (claim m₂ path) := by
  by_cases huser : ReadsUser path
  · have hflat : ¬ Descends path := fun hd => hpath ⟨huser, hd⟩
    rw [claim_user huser hflat, claim_user huser hflat]
    exact h.2
  · exact Or.inl (h.1.claim_eq huser)

/-! ## What is established -/

/-- The part of an identity that decides whose account it is. -/
def established (r : Except AppError Identity) : Except AppError (String × Option String × Bool) :=
  r.map fun i => (i.subject, i.email, i.emailVerified)

lemma established_establish (p : Platform) (idp : IdentityProvider) (vs : Option String)
    (claims : Members) :
    established (establish p idp vs claims) =
      match subjectOf idp claims vs with
      | none => .error (.unavailable "no usable subject claim")
      | some s =>
          if s.isEmpty = true ∨ s.utf8ByteSize > 512 then
            .error (.unavailable "no usable subject claim")
          else .ok (s, emailOf p idp claims, emailVerifiedOf idp claims) := by
  rw [establish, identityFromClaims]
  cases subjectOf idp claims vs with
  | none => rfl
  | some s =>
      by_cases hs : s.isEmpty = true ∨ s.utf8ByteSize > 512
      · simp only [if_pos hs]
        rfl
      · simp only [if_neg hs]
        rfl

lemma established_congr {vs : Option String} (hsubject : subjectOf idp m₁ vs = subjectOf idp m₂ vs)
    (hemail : emailOf p idp m₁ = emailOf p idp m₂)
    (hverified : emailVerifiedOf idp m₁ = emailVerifiedOf idp m₂) :
    established (establish p idp vs m₁) = established (establish p idp vs m₂) := by
  rw [established_establish, established_establish, hsubject, hemail, hverified]

lemma subjectOf_congr {vs : Option String}
    (h : vs.isSome = true ∨ subjectOf idp m₁ none = subjectOf idp m₂ none) :
    subjectOf idp m₁ vs = subjectOf idp m₂ vs := by
  cases vs with
  | none => simpa using h
  | some s => rfl

lemma chooseAccount_congr {i₁ i₂ : Identity} (hsubject : i₁.subject = i₂.subject)
    (hemail : i₁.email = i₂.email) (hverified : i₁.emailVerified = i₂.emailVerified)
    (now : Instant) (dir : Directory) (idp : IdentityProvider) :
    chooseAccount now dir idp i₁ = chooseAccount now dir idp i₂ := by
  simp only [chooseAccount, byPolicy, hsubject, hemail, hverified]

lemma map_chooseAccount_congr {r₁ r₂ : Except AppError Identity}
    (h : established r₁ = established r₂) (now : Instant) (dir : Directory)
    (idp : IdentityProvider) :
    r₁.map (chooseAccount now dir idp) = r₂.map (chooseAccount now dir idp) := by
  cases r₁ with
  | error e₁ =>
      cases r₂ with
      | error e₂ => simpa [established, Except.map] using h
      | ok i₂ => simp [established, Except.map] at h
  | ok i₁ =>
      cases r₂ with
      | error e₂ => simp [established, Except.map] at h
      | ok i₂ =>
          simp only [established, Except.map, Except.ok.injEq, Prod.mk.injEq] at h
          obtain ⟨hsubject, hemail, hverified⟩ := h
          simp only [Except.map, chooseAccount_congr hsubject hemail hverified]

/-- **The identity comes from the provider only**: whatever the provider answers, two values of the
browser's `user` parameter establish the same subject, email and verification, and lead to the same
account. -/
def ProviderOnly (idp : IdentityProvider) : Prop :=
  ∀ p : Platform, p.Lawful → ∀ x issuer code record u₁ u₂,
    established (prove p x issuer idp code record u₁) =
      established (prove p x issuer idp code record u₂) ∧
    ∀ now dir, (prove p x issuer idp code record u₁).map (chooseAccount now dir idp) =
      (prove p x issuer idp code record u₂).map (chooseAccount now dir idp)

/-! ## Providers that are blind to the browser -/

/-- The mapper sees what the browser sent: it reads `user`, and descends into it or may find
another `user` there, which `merged` says userinfo may bring. -/
def Exposed (merged : Bool) (path : String) : Prop :=
  ReadsUser path ∧ (Descends path ∨ merged = true)

instance (merged : Bool) (path : String) : Decidable (Exposed merged path) :=
  inferInstanceAs (Decidable (_ ∧ _))

/-- Every accepted ID token has a claim at this path, so userinfo is not asked for the email. -/
def InEveryIdToken (path : String) : Prop :=
  split path '.' ∈ [["exp"], ["iss"], ["sub"], ["aud"], ["nonce"]]

instance (path : String) : Decidable (InEveryIdToken path) :=
  inferInstanceAs (Decidable (_ ∈ _))

/-- The subject, the email and its verification are out of the browser's reach.  An OIDC provider's
subject is the ID token's; without userinfo, a plain OAuth 2.0 provider has no subject but one that
is read out of `user`. -/
def BrowserBlind (idp : IdentityProvider) : Prop :=
  let m := idp.mappers
  let userinfo := idp.userinfoEndpoint.isSome
  idp.tokenEndpoint = none ∨
    if idp.kind = .oidc then
      idp.jwksUri = none ∨
        ¬ Exposed userinfo m.emailClaim ∧
          ¬ Exposed (userinfo && !decide (InEveryIdToken m.emailClaim)) m.emailVerifiedClaim
    else
      ¬ Exposed userinfo m.subjectClaim ∧
        (userinfo = true → ¬ ReadsUser m.emailClaim ∧ ¬ ReadsUser m.emailVerifiedClaim)

lemma Alike.read_eq {β : Type} (h : Alike m₁ m₂)
    (hpath : ¬ Exposed false path) (f : Option Value → β)
    (hf : ∀ m, f (some (.object m)) = f none) : f (claim m₁ path) = f (claim m₂ path) := by
  have hnone : ∀ v, NoScalar v → f v = f none := by
    rintro v (rfl | ⟨m, rfl⟩)
    · rfl
    · exact hf m
  have hflat : ¬ (ReadsUser path ∧ Descends path) := fun hp => hpath ⟨hp.1, Or.inl hp.2⟩
  rcases h.claim_eq hflat with heq | ⟨h₁, h₂⟩
  · rw [heq]
  · rw [hnone _ h₁, hnone _ h₂]

lemma Alike.emailOf_eq (h : Alike m₁ m₂)
    (hpath : ¬ Exposed false idp.mappers.emailClaim) (p : Platform) :
    emailOf p idp m₁ = emailOf p idp m₂ :=
  h.read_eq hpath (fun v => (v.bind Value.asStr).bind fun e => (normalizeEmail p e).toOption)
    fun _ => rfl

lemma Alike.emailVerifiedOf_eq (h : Alike m₁ m₂)
    (hpath : ¬ Exposed false idp.mappers.emailVerifiedClaim) :
    emailVerifiedOf idp m₁ = emailVerifiedOf idp m₂ :=
  h.read_eq hpath (fun v : Option Value => (v.map fun v : Value =>
    v.asBool == some true || v.asStr == some "true").getD false) fun _ => rfl

lemma Alike.subjectOf_eq (h : Alike m₁ m₂) (hpath : ¬ Exposed false idp.mappers.subjectClaim) :
    subjectOf idp m₁ none = subjectOf idp m₂ none :=
  h.read_eq hpath (fun v => v.bind scalarText) fun _ => rfl

/-! ## ID tokens -/

lemma unavailable_eq_ok {α : Type} {what : String} {x : Except String α} {a : α} :
    unavailable what x = .ok a ↔ x = .ok a := by
  cases x <;> simp [unavailable]

lemma jwksUri_of_signingJwk {kid : Option String}
    {jwk : Value} (h : signingJwk x idp kid = .ok jwk) : idp.jwksUri ≠ none := by
  intro hnone
  rw [signingJwk, bind_eq_ok] at h
  obtain ⟨keys, hkeys, -⟩ := h
  rw [jwks, hnone] at hkeys
  cases hkeys

variable {idClaims : Option Members} {tokens : Value} {nonce : String} {at_ vs : Option String}
  {claims : Members} {c : Members}

lemma nonce_of_checkIdClaims (h : checkIdClaims p idp nonce claims = .ok ()) :
    strClaim claims "nonce" = some nonce := by
  simp only [checkIdClaims] at h
  by_contra hnonce
  split_ifs at h

/-- **What an accepted ID token has**: a key of the provider verified it, its `sub` is a string,
and the required claims and the nonce are there. -/
lemma verifyIdToken_claims (hp : p.Lawful) {token nonce : String}
    (h : verifyIdToken p x idp token nonce = .ok claims) :
    idp.jwksUri ≠ none ∧ (∃ s, strClaim claims "sub" = some s) ∧
      ∀ name ∈ ["exp", "iss", "sub", "aud", "nonce"], claims.get name ≠ none := by
  rw [verifyIdToken, bind_eq_ok] at h
  obtain ⟨header, -, h⟩ := h
  split_ifs at h with halg
  simp only [bind_eq_ok, unavailable_eq_ok, pure, Except.pure, Except.ok.injEq] at h
  obtain ⟨jwk, hjwk, key, -, claims', hdecode, ⟨⟩, hcheck, rfl⟩ := h
  refine ⟨jwksUri_of_signingJwk hjwk, ?_, ?_⟩
  · obtain ⟨s, hs⟩ := hp.subject hdecode
    exact ⟨s, by simp [strClaim, hs, Value.asStr]⟩
  · intro name hname
    by_cases hnonce : name = "nonce"
    · subst hnonce
      have hn := nonce_of_checkIdClaims hcheck
      intro hnone
      simp [strClaim, hnone] at hn
    · exact hp.required hdecode name (by simpa [hnonce] using hname)

lemma idTokenClaims_cases (hp : p.Lawful) (h : idTokenClaims p x idp nonce tokens = .ok idClaims) :
    (idp.kind = .oidc ∧ ∃ c, idClaims = some c ∧ idp.jwksUri ≠ none ∧
      (∃ s, strClaim c "sub" = some s) ∧
        ∀ name ∈ ["exp", "iss", "sub", "aud", "nonce"], c.get name ≠ none) ∨
    (idp.kind ≠ .oidc ∧ idClaims = none) := by
  rw [idTokenClaims] at h
  by_cases hkind : idp.kind = .oidc
  · rw [if_pos hkind] at h
    refine Or.inl ⟨hkind, ?_⟩
    cases htoken : (tokens.member "id_token").bind Value.asStr with
    | none =>
        rw [htoken] at h
        cases h
    | some token =>
        simp only [htoken] at h
        cases hverify : verifyIdToken p x idp token nonce with
        | error e =>
            rw [hverify] at h
            cases h
        | ok c =>
            rw [hverify] at h
            cases h
            exact ⟨c, rfl, verifyIdToken_claims hp hverify⟩
  · rw [if_neg hkind] at h
    cases h
    exact Or.inr ⟨hkind, rfl⟩

/-! ## Two runs -/

/-- The claims before userinfo. -/
def collected (p : Platform) (u : Option String) (idClaims : Option Members) : Members :=
  insertAll (browserClaims p u) (idClaims.getD [])

lemma collected_alike (p : Platform) (u₁ u₂ : Option String) (idClaims : Option Members) :
    Alike (collected p u₁ idClaims) (collected p u₂ idClaims) :=
  (browserClaims_alike p u₁ u₂).insertAll _

/-- What is established after the token endpoint has answered and the ID token is checked. -/
def establishedFrom (p : Platform) (x : Exchange) (idp : IdentityProvider) (tokens : Value)
    (idClaims : Option Members) (u : Option String) :
    Except AppError (String × Option String × Bool) :=
  let vs := idClaims.bind (strClaim · "sub")
  (withUserinfo x idp ((tokens.member "access_token").bind Value.asStr) vs
    (collected p u idClaims)).bind fun claims => established (establish p idp vs claims)

/-- **`prove` by its stages**: the answers of the provider are the same whatever the browser
sent. -/
lemma established_prove (p : Platform) (x : Exchange) (issuer : String) (idp : IdentityProvider)
    (code : String) (record : StateRecord) (u : Option String) :
    established (prove p x issuer idp code record u) =
      (redeem x issuer idp code record).bind fun tokens =>
        (idTokenClaims p x idp record.nonce tokens).bind fun idClaims =>
          establishedFrom p x idp tokens idClaims u := by
  simp only [prove]
  cases redeem x issuer idp code record with
  | error e => rfl
  | ok tokens =>
      change established ((idTokenClaims p x idp record.nonce tokens).bind _) = _
      simp only [Except.bind]
      cases idTokenClaims p x idp record.nonce tokens with
      | error e => rfl
      | ok idClaims =>
          change established ((withUserinfo x idp _ _ (collected p u idClaims)).bind _) = _
          simp only [establishedFrom, Except.bind]
          cases withUserinfo x idp ((tokens.member "access_token").bind Value.asStr)
              (idClaims.bind (strClaim · "sub")) (collected p u idClaims) <;> rfl

lemma withUserinfo_unasked (h : idp.userinfoEndpoint = none ∨ at_ = none ∨
      idp.kind ≠ .oauth2 ∧ claim c idp.mappers.emailClaim ≠ none) :
    withUserinfo x idp at_ vs c = .ok c := by
  unfold withUserinfo
  split
  · rename_i endpoint token hendpoint
    rw [if_neg (by simpa [hendpoint] using h)]
  · rfl

lemma AgreeOff.mergeUserinfo (h : AgreeOff m₁ m₂) (x : Exchange)
    (idp : IdentityProvider) (endpoint token : String) (vs : Option String) (info : Value) :
    AgreeOff (mergeUserinfo x idp endpoint token vs m₁ info)
      (mergeUserinfo x idp endpoint token vs m₂ info) := by
  have hemail : ¬ ReadsUser "email" := by decide
  have hmerge : ∀ {c₁ c₂ : Members}, AgreeOff c₁ c₂ → AgreeOff
      (if idp.preset = some "github" ∧ (claim c₁ "email").bind Value.asStr = none then
        Broker.githubPrimaryEmail x endpoint token c₁ else c₁)
      (if idp.preset = some "github" ∧ (claim c₂ "email").bind Value.asStr = none then
        Broker.githubPrimaryEmail x endpoint token c₂ else c₂) := by
    intro c₁ c₂ hc
    rw [hc.claim_eq hemail]
    split
    · exact hc.githubPrimaryEmail x endpoint token
    · exact hc
  cases info with
  | object m => exact hmerge (h.fillFrom vs m)
  | _ => exact hmerge h

/-- **Userinfo**: two runs that agree off `user` ask for it alike, fail alike, and agree off `user`
afterwards. -/
lemma withUserinfo_agreeOff {c₁ c₂ : Members} (h : AgreeOff c₁ c₂)
    (hneed : idp.kind = .oauth2 ∨ ¬ ReadsUser idp.mappers.emailClaim) :
    (∃ e, withUserinfo x idp at_ vs c₁ = .error e ∧ withUserinfo x idp at_ vs c₂ = .error e) ∨
    ∃ c₁' c₂', withUserinfo x idp at_ vs c₁ = .ok c₁' ∧ withUserinfo x idp at_ vs c₂ = .ok c₂' ∧
      AgreeOff c₁' c₂' := by
  unfold withUserinfo
  split
  · rename_i endpoint token _
    have hasked : (idp.kind = .oauth2 ∨ claim c₁ idp.mappers.emailClaim = none) ↔
        (idp.kind = .oauth2 ∨ claim c₂ idp.mappers.emailClaim = none) := by
      rcases hneed with hkind | hemail
      · simp [hkind]
      · rw [h.claim_eq hemail]
    by_cases hask : idp.kind = .oauth2 ∨ claim c₁ idp.mappers.emailClaim = none
    · rw [if_pos hask, if_pos (hasked.mp hask)]
      cases x.getJson "userinfo" endpoint (some token) with
      | error e => exact Or.inl ⟨e, rfl, rfl⟩
      | ok info => exact Or.inr ⟨_, _, rfl, rfl, h.mergeUserinfo x idp endpoint token vs info⟩
    · rw [if_neg hask, if_neg (hasked.not.mp hask)]
      exact Or.inr ⟨c₁, c₂, rfl, rfl, h⟩
  · exact Or.inr ⟨c₁, c₂, rfl, rfl, h⟩

lemma establishedFrom_of_agreeOff
    (hsubject : (idClaims.bind (strClaim · "sub")).isSome = true ∨
      ¬ ReadsUser idp.mappers.subjectClaim) (hemail : ¬ ReadsUser idp.mappers.emailClaim)
    (hverified : ¬ ReadsUser idp.mappers.emailVerifiedClaim) (u₁ u₂ : Option String) :
    establishedFrom p x idp tokens idClaims u₁ = establishedFrom p x idp tokens idClaims u₂ := by
  simp only [establishedFrom]
  rcases withUserinfo_agreeOff (collected_alike p u₁ u₂ idClaims).1 (Or.inr hemail) with
    ⟨e, h₁, h₂⟩ | ⟨c₁, c₂, h₁, h₂, hagree⟩
  · rw [h₁, h₂]
  · rw [h₁, h₂]
    refine established_congr (subjectOf_congr (hsubject.imp_right fun hs => ?_)) ?_ ?_
    · simp only [subjectOf, hagree.claim_eq hs]
    · simp only [emailOf, hagree.claim_eq hemail]
    · simp only [emailVerifiedOf, hagree.claim_eq hverified]

/-- Two runs with a verified subject and without userinfo establish the same if no mapper descends
into `user`. -/
lemma establishedFrom_of_unasked
    (hunasked : idp.userinfoEndpoint = none ∨ idp.kind ≠ .oauth2 ∧
      ∀ u, claim (collected p u idClaims) idp.mappers.emailClaim ≠ none)
    (hsubject : (idClaims.bind (strClaim · "sub")).isSome = true)
    (hemail : ¬ Exposed false idp.mappers.emailClaim)
    (hverified : ¬ Exposed false idp.mappers.emailVerifiedClaim) (u₁ u₂ : Option String) :
    establishedFrom p x idp tokens idClaims u₁ = establishedFrom p x idp tokens idClaims u₂ := by
  have hplain : ∀ u, withUserinfo x idp ((tokens.member "access_token").bind Value.asStr)
      (idClaims.bind (strClaim · "sub")) (collected p u idClaims) =
        .ok (collected p u idClaims) := by
    intro u
    refine withUserinfo_unasked ?_
    rcases hunasked with hnone | ⟨hkind, hclaim⟩
    · exact Or.inl hnone
    · exact Or.inr (Or.inr ⟨hkind, hclaim u⟩)
  have halike := collected_alike p u₁ u₂ idClaims
  simp only [establishedFrom, hplain]
  exact established_congr (subjectOf_congr (Or.inl hsubject)) (halike.emailOf_eq hemail p)
    (halike.emailVerifiedOf_eq hverified)

/-- Without an ID token and userinfo there are no claims but the browser's, and no subject in them
unless the mapper descends into `user`. -/
lemma establishedFrom_of_nothing (hnone : idp.userinfoEndpoint = none)
    (hsubject : ¬ Exposed false idp.mappers.subjectClaim) (u : Option String) :
    establishedFrom p x idp tokens none u = .error (.unavailable "no usable subject claim") := by
  have halike : Alike (collected p u none) [] := by
    obtain ⟨hagree, huser⟩ := browserClaims_get p u
    exact ⟨hagree, Or.inr ⟨huser, Or.inl rfl⟩⟩
  have hempty : subjectOf idp [] none = none := by
    obtain ⟨first, parts, hsplit⟩ := split_eq_cons idp.mappers.subjectClaim '.'
    simp [subjectOf, claim, hsplit]
  simp only [establishedFrom, withUserinfo_unasked (Or.inl hnone)]
  change established _ = _
  rw [established_establish, Option.bind_none, halike.subjectOf_eq hsubject, hempty]

lemma claim_collected_ne_none {u : Option String} (hpath : InEveryIdToken path)
    (hc : ∀ name ∈ ["exp", "iss", "sub", "aud", "nonce"], c.get name ≠ none) :
    claim (collected p u (some c)) path ≠ none := by
  obtain ⟨name, hname, hsplit⟩ : ∃ name ∈ ["exp", "iss", "sub", "aud", "nonce"],
      split path '.' = [name] := by
    simpa [InEveryIdToken] using hpath
  have hget : (collected p u (some c)).get name ≠ none := by
    intro hnone
    exact hc name hname (get_insertAll_eq_none.mp hnone).2
  simpa [claim, hsplit] using hget

lemma InEveryIdToken.not_readsUser (h : InEveryIdToken path) :
    ¬ ReadsUser path := by
  simp only [InEveryIdToken, List.mem_cons, List.not_mem_nil, or_false] at h
  rcases h with h | h | h | h | h <;> simp [ReadsUser, h]

/-- **Blind providers**: what is established does not depend on what the browser sent. -/
lemma BrowserBlind.establishedFrom_eq (hp : p.Lawful)
    (hendpoint : idp.tokenEndpoint ≠ none) (hblind : BrowserBlind idp)
    (hid : idTokenClaims p x idp nonce tokens = .ok idClaims) (u₁ u₂ : Option String) :
    establishedFrom p x idp tokens idClaims u₁ = establishedFrom p x idp tokens idClaims u₂ := by
  have hblind := hblind.resolve_left hendpoint
  rcases idTokenClaims_cases hp hid with ⟨hoidc, c, rfl, huri, ⟨s, hs⟩, hc⟩ | ⟨hoidc, rfl⟩
  · rw [if_pos hoidc] at hblind
    obtain ⟨hemail, hverified⟩ := hblind.resolve_left huri
    have hsubject : (((some c).bind (strClaim · "sub")).isSome = true) := by simp [hs]
    cases hinfo : idp.userinfoEndpoint with
    | none =>
        rw [hinfo] at hemail hverified
        exact establishedFrom_of_unasked (Or.inl hinfo) hsubject hemail hverified u₁ u₂
    | some endpoint =>
        rw [hinfo] at hemail hverified
        by_cases hin : InEveryIdToken idp.mappers.emailClaim
        · refine establishedFrom_of_unasked ?_ hsubject ?_ ?_ u₁ u₂
          · exact Or.inr ⟨by simp [hoidc], fun u => claim_collected_ne_none hin hc⟩
          · exact fun h => hin.not_readsUser h.1
          · simpa [hin] using hverified
        · refine establishedFrom_of_agreeOff (Or.inl hsubject) ?_ ?_ u₁ u₂
          · exact fun h => hemail ⟨h, Or.inr rfl⟩
          · exact fun h => hverified ⟨h, Or.inr (by simp [hin])⟩
  · rw [if_neg hoidc] at hblind
    obtain ⟨hsubject, hrest⟩ := hblind
    cases hinfo : idp.userinfoEndpoint with
    | none =>
        rw [hinfo] at hsubject
        rw [establishedFrom_of_nothing hinfo hsubject, establishedFrom_of_nothing hinfo hsubject]
    | some endpoint =>
        rw [hinfo] at hsubject hrest
        obtain ⟨hemail, hverified⟩ := hrest rfl
        have hsub : ¬ ReadsUser idp.mappers.subjectClaim := fun h => hsubject ⟨h, Or.inr rfl⟩
        exact establishedFrom_of_agreeOff (Or.inr hsub) hemail hverified u₁ u₂

lemma BrowserBlind.providerOnly (hblind : BrowserBlind idp) :
    ProviderOnly idp := by
  intro p hp x issuer code record u₁ u₂
  have hsame : established (prove p x issuer idp code record u₁) =
      established (prove p x issuer idp code record u₂) := by
    rw [established_prove, established_prove]
    cases hredeem : redeem x issuer idp code record with
    | error e => rfl
    | ok tokens =>
        have hendpoint : idp.tokenEndpoint ≠ none := by
          intro hnone
          rw [redeem, hnone] at hredeem
          cases hredeem
        cases hid : idTokenClaims p x idp record.nonce tokens with
        | error e => simp [Except.bind, hid]
        | ok idClaims =>
            simp only [Except.bind, hid]
            exact hblind.establishedFrom_eq hp hendpoint hid u₁ u₂
  exact ⟨hsame, fun now dir => map_chooseAccount_congr hsame now dir idp⟩

end Ridm.Broker
