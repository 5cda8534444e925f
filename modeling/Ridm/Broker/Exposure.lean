import Ridm.Broker.Identity

/-!
# Providers the browser can speak for

A provider outside of `BrowserBlind` has a sign-in in which one `user` parameter shows in what is
established, and another, or none, does not.  The sign-ins are put together here for any such
provider: the browser sends one object, the ID token has nothing that is not required, and userinfo
has at most a subject and a `user` of its own.
-/

namespace Ridm.Broker

/-! ## A sign-in -/

/-- An object around a value, one member deep for every name. -/
def nested : List String → Value → Value
  | [], leaf => leaf
  | k :: ks, leaf => .object [(k, nested ks leaf)]

lemma foldlM_nested (parts : List String) (leaf : Value) :
    parts.foldlM Value.member (nested parts leaf) = some leaf := by
  induction parts with
  | nil => rfl
  | cons k ks ih => simpa [nested, Value.member, Members.get_cons] using ih

/-- The address whose account is at stake. -/
def victim : String := "victim@example.com"

/-- The subject that signs in. -/
def attacker : String := "attacker"

/-- A platform on which the browser's text reads as `user`, and the provider's token verifies to
`claims`. -/
def reading (user : Value) (claims : Members) : Platform where
  toLowercase := id
  validateEmail e := e == victim
  parseUuid _ := none
  fromStr _ := some user
  decodeHeader _ := .ok ⟨.rs256, none⟩
  decodingKey := .ok
  decode _ _ _ _ := .ok claims

/-- The other parties answer `tokens` at the token endpoint and `info` everywhere else. -/
def answering (tokens info : Value) : Exchange where
  now := 0
  decryptSecret := .ok "secret"
  postForm _ _ _ _ := .ok tokens
  getJson _ _ _ := .ok info
  cachedJwks _ := .ok (some (.object [("keys", .array [.object [("kty", .string "RSA")]])]))
  refreshAllowed := .ok false
  storeJwks _ := .ok ()

/-- The claims of an ID token with nothing in it that is not required. -/
def bareToken (idp : IdentityProvider) (nonce : String) : Members :=
  [("aud", .string idp.clientId), ("exp", .number "4102444800"),
    ("iss", .string (idp.issuer.getD "")), ("nonce", .string nonce), ("sub", .string attacker)]

variable {idp : IdentityProvider} {path : String} {leaf : Value} {p : Platform} {c₁ c₂ : Members}

lemma lawful_of_bareToken {nonce : String}
    (h : ∀ now token key v, p.decode now token key v = .ok (bareToken idp nonce)) : p.Lawful where
  required := by
    intro now token key alg clientId claims hdecode name hname
    rw [h, Except.ok.injEq] at hdecode
    subst hdecode
    simp only [List.mem_cons, List.not_mem_nil, or_false] at hname
    rcases hname with rfl | rfl | rfl | rfl <;> simp [bareToken, Members.get_cons]
  subject := by
    intro now token key alg clientId claims hdecode
    rw [h, Except.ok.injEq] at hdecode
    subst hdecode
    exact ⟨attacker, by simp [bareToken, Members.get_cons]⟩

lemma redeem_answering (h : idp.tokenEndpoint ≠ none)
    (tokens info : Value) (issuer code : String) (record : StateRecord) :
    redeem (answering tokens info) issuer idp code record = .ok tokens := by
  obtain ⟨endpoint, hendpoint⟩ := Option.ne_none_iff_exists'.mp h
  rw [redeem, hendpoint]
  simp only [clientSecret]
  split_ifs <;> rfl

lemma checkIdClaims_bareToken (p : Platform) (idp : IdentityProvider) (nonce : String) :
    checkIdClaims p idp nonce (bareToken idp nonce) = .ok () := by
  have hiss : strClaim (bareToken idp nonce) "iss" = some (idp.issuer.getD "") := by
    simp [strClaim, bareToken, Members.get_cons, Value.asStr]
  have hnonce : strClaim (bareToken idp nonce) "nonce" = some nonce := by
    simp [strClaim, bareToken, Members.get_cons, Value.asStr]
  have haud : ((bareToken idp nonce).get "aud").bind Value.asArray = none := by
    simp [bareToken, Members.get_cons, Value.asArray]
  simp [checkIdClaims, hiss, hnonce, haud, issuerMatches]

lemma idTokenClaims_bareToken (hkind : idp.kind = .oidc)
    (huri : idp.jwksUri ≠ none) {t : Value} {token : String}
    (htoken : t.member "id_token" = some (.string token)) (user info : Value) (nonce : String) :
    idTokenClaims (reading user (bareToken idp nonce)) (answering t info) idp nonce t =
      .ok (some (bareToken idp nonce)) := by
  obtain ⟨uri, huri⟩ := Option.ne_none_iff_exists'.mp huri
  have hkey : signingJwk (answering t info) idp none =
      .ok (.object [("kty", .string "RSA")]) := by
    rw [signingJwk, jwks, huri]
    rfl
  have hverify : verifyIdToken (reading user (bareToken idp nonce)) (answering t info) idp
      token nonce = .ok (bareToken idp nonce) := by
    have hcheck := checkIdClaims_bareToken (reading user (bareToken idp nonce)) idp nonce
    simp only [verifyIdToken, reading, unavailable, bind, Except.bind] at hcheck ⊢
    rw [if_neg (by decide), hkey]
    simp only [hcheck]
    rfl
  rw [idTokenClaims, if_pos hkind, htoken]
  simp only [Option.bind_some, Value.asStr, hverify]
  rfl

variable {idClaims : Option Members} {vs : Option String} {c : Members}

/-- Two runs of such a sign-in, in which the browser sends nothing or its object, refute
`ProviderOnly` when the claims they end with establish different things. -/
lemma not_providerOnly (hendpoint : idp.tokenEndpoint ≠ none) (user : Value) {tokens info : Value}
    (hid : idTokenClaims (reading user (bareToken idp "")) (answering tokens info) idp "" tokens =
      .ok idClaims)
    (h₁ : withUserinfo (answering tokens info) idp ((tokens.member "access_token").bind Value.asStr)
      (idClaims.bind (strClaim · "sub"))
      (collected (reading user (bareToken idp "")) none idClaims) = .ok c₁)
    (h₂ : withUserinfo (answering tokens info) idp ((tokens.member "access_token").bind Value.asStr)
      (idClaims.bind (strClaim · "sub"))
      (collected (reading user (bareToken idp "")) (some "") idClaims) = .ok c₂)
    (hne : established (establish (reading user (bareToken idp "")) idp
        (idClaims.bind (strClaim · "sub")) c₁) ≠
      established (establish (reading user (bareToken idp "")) idp
        (idClaims.bind (strClaim · "sub")) c₂)) : ¬ ProviderOnly idp := by
  intro h
  have hlawful : (reading user (bareToken idp "")).Lawful :=
    lawful_of_bareToken fun _ _ _ _ => rfl
  have hsame := (h _ hlawful (answering tokens info) "" "" ⟨"", none⟩ none (some "")).1
  rw [established_prove, established_prove, redeem_answering hendpoint] at hsame
  simp only [Except.bind, hid, establishedFrom, h₁, h₂] at hsame
  exact hne hsame

lemma get_insertAll_bareToken (c : Members) (idp : IdentityProvider) (nonce k : String)
    (hk : k ∉ ["aud", "exp", "iss", "nonce", "sub"]) :
    (insertAll c (bareToken idp nonce)).get k = c.get k := by
  simp only [List.mem_cons, List.not_mem_nil, or_false, not_or, @eq_comm _ k] at hk
  simp [insertAll, bareToken, Members.get_insert, hk]

lemma collected_user (m : Members) (idp : IdentityProvider)
    (h : idClaims = none ∨ idClaims = some (bareToken idp "")) :
    (collected (reading (.object m) (bareToken idp "")) none idClaims).get "user" = none ∧
      (collected (reading (.object m) (bareToken idp "")) (some "") idClaims).get "user" =
        some (.object m) := by
  rcases h with rfl | rfl
  · exact ⟨rfl, rfl⟩
  · simp only [collected, Option.getD_some]
    rw [get_insertAll_bareToken _ _ _ _ (by decide), get_insertAll_bareToken _ _ _ _ (by decide)]
    exact ⟨rfl, rfl⟩

/-! ## What shows -/

/-- One run reads `leaf`, and the other nothing of use. -/
def Shown (leaf : Value) (v₁ v₂ : Option Value) : Prop :=
  v₁ = none ∧ v₂ = some leaf ∨ v₁ = some leaf ∧ ∃ m, v₂ = some (.object m)

lemma Shown.ne {β : Type} {v₁ v₂ : Option Value} (h : Shown leaf v₁ v₂)
    {f : Option Value → β} (hobject : ∀ m, f (some (.object m)) = f none)
    (hleaf : f (some leaf) ≠ f none) : f v₁ ≠ f v₂ := by
  rcases h with ⟨rfl, rfl⟩ | ⟨rfl, m, rfl⟩
  · exact hleaf.symm
  · rw [hobject m]
    exact hleaf

lemma shown_of_descends (huser : ReadsUser path) (hdescends : Descends path) (leaf : Value) :
    ∃ m, ∀ {c₁ c₂ : Members}, c₁.get "user" = none → c₂.get "user" = some (.object m) →
      Shown leaf (claim c₁ path) (claim c₂ path) := by
  obtain ⟨first, parts, hsplit⟩ := split_eq_cons path '.'
  rw [ReadsUser, hsplit, List.head?_cons, Option.some.injEq] at huser
  subst huser
  cases parts with
  | nil => simp [Descends, hsplit] at hdescends
  | cons k ks =>
      refine ⟨[(k, nested ks leaf)], fun h₁ h₂ => Or.inl ⟨?_, ?_⟩⟩
      · simp [claim, hsplit, h₁]
      · simp only [claim, hsplit, h₂]
        exact foldlM_nested (k :: ks) leaf

lemma shown_of_flat (huser : ReadsUser path) (hflat : ¬ Descends path)
    {m c₁ c₂ : Members} (h₁ : c₁.get "user" = some leaf)
    (h₂ : c₂.get "user" = some (.object m)) : Shown leaf (claim c₁ path) (claim c₂ path) := by
  rw [claim_user huser hflat, claim_user huser hflat]
  exact Or.inr ⟨h₁, m, h₂⟩

/-- A mapper besides the subject's, and a value that it makes something of. -/
def Tells (idp : IdentityProvider) (path : String) (leaf : Value) : Prop :=
  path = idp.mappers.emailClaim ∧ leaf = .string victim ∨
    path = idp.mappers.emailVerifiedClaim ∧ leaf = .bool true

lemma normalizeEmail_victim (user : Value) (claims : Members) :
    normalizeEmail (reading user claims) victim = .ok victim := by
  rfl

lemma established_attacker (h : subjectOf idp c vs = some attacker) :
    established (establish p idp vs c) = .ok (attacker, emailOf p idp c, emailVerifiedOf idp c) := by
  have hattacker : ¬ (attacker.isEmpty = true ∨ attacker.utf8ByteSize > 512) := by decide
  rw [established_establish, h]
  simp only [if_neg hattacker]

lemma Tells.established_ne (h : Tells idp path leaf) {user : Value} {claims c₁ c₂ : Members}
    (hshown : Shown leaf (claim c₁ path) (claim c₂ path))
    (h₁ : subjectOf idp c₁ vs = some attacker) (h₂ : subjectOf idp c₂ vs = some attacker) :
    established (establish (reading user claims) idp vs c₁) ≠
      established (establish (reading user claims) idp vs c₂) := by
  intro heq
  rw [established_attacker h₁, established_attacker h₂] at heq
  simp only [Except.ok.injEq, Prod.mk.injEq, true_and] at heq
  rcases h with ⟨rfl, rfl⟩ | ⟨rfl, rfl⟩
  · refine hshown.ne (f := fun v => (v.bind Value.asStr).bind fun e =>
      (normalizeEmail (reading user claims) e).toOption) (fun _ => rfl) ?_ heq.1
    simp [Value.asStr, normalizeEmail_victim, Except.toOption]
  · refine hshown.ne (f := fun v : Option Value => (v.map fun v : Value =>
      v.asBool == some true || v.asStr == some "true").getD false) (fun _ => rfl) ?_ heq.2
    decide

/-! ## OIDC providers -/

/-- A token endpoint's answer without an access token. -/
def idTokenOnly : Value := .object [("id_token", .string "jwt")]

/-- A token endpoint's answer with an access token. -/
def bothTokens : Value := .object [("access_token", .string "bearer"), ("id_token", .string "jwt")]

lemma oidc_of_descends (hkind : idp.kind = .oidc)
    (hendpoint : idp.tokenEndpoint ≠ none) (huri : idp.jwksUri ≠ none)
    (htells : Tells idp path leaf) (huser : ReadsUser path)
    (hdescends : Descends path) : ¬ ProviderOnly idp := by
  obtain ⟨m, hshown⟩ := shown_of_descends huser hdescends leaf
  have hid := idTokenClaims_bareToken hkind huri (t := idTokenOnly) rfl (.object m) .null ""
  obtain ⟨hnone, hsome⟩ := collected_user m idp (Or.inr rfl)
  exact not_providerOnly hendpoint (.object m) hid (withUserinfo_unasked (Or.inr (Or.inl rfl)))
    (withUserinfo_unasked (Or.inr (Or.inl rfl)))
    (htells.established_ne (hshown hnone hsome) rfl rfl)

lemma mergeUserinfo_answering (tokens : Value) (m : Members) (idp : IdentityProvider)
    (endpoint token : String) (vs : Option String) (c : Members) :
    mergeUserinfo (answering tokens (.object m)) idp endpoint token vs c (.object m) =
      fillFrom vs c m := by
  simp only [mergeUserinfo, githubPrimaryEmail, answering]
  split_ifs <;> rfl

lemma withUserinfo_answering (hinfo : idp.userinfoEndpoint ≠ none)
    (hask : idp.kind = .oauth2 ∨ claim c idp.mappers.emailClaim = none)
    (tokens : Value) (m : Members) (token : String) (vs : Option String) :
    withUserinfo (answering tokens (.object m)) idp (some token) vs c = .ok (fillFrom vs c m) := by
  obtain ⟨endpoint, hendpoint⟩ := Option.ne_none_iff_exists'.mp hinfo
  simp only [withUserinfo, hendpoint, if_pos hask]
  rw [← mergeUserinfo_answering tokens m idp endpoint token vs c]
  rfl

lemma claim_bareToken (idp : IdentityProvider) (nonce : String)
    (h : ¬ InEveryIdToken path) : claim (insertAll [] (bareToken idp nonce)) path = none := by
  obtain ⟨first, parts, hsplit⟩ := split_eq_cons path '.'
  by_cases hfirst : first ∈ ["aud", "exp", "iss", "nonce", "sub"]
  · cases parts with
    | nil =>
        refine absurd ?_ h
        simp only [InEveryIdToken, hsplit, List.mem_cons, List.not_mem_nil, or_false,
          List.cons.injEq, and_true] at hfirst ⊢
        tauto
    | cons k ks =>
        have hscalar : ∀ v, (insertAll [] (bareToken idp nonce)).get first = some v →
            v.member k = none := by
          simp only [List.mem_cons, List.not_mem_nil, or_false] at hfirst
          rcases hfirst with rfl | rfl | rfl | rfl | rfl <;>
            simp [insertAll, bareToken, Members.get_insert, Value.member]
        simp only [claim, hsplit]
        cases hget : (insertAll [] (bareToken idp nonce)).get first with
        | none => rfl
        | some v => simp [hscalar v hget]
  · simp [claim, hsplit, get_insertAll_bareToken _ _ _ _ hfirst]

lemma fillFrom_user (vs : Option String) (c : Members) (leaf : Value) :
    (fillFrom vs c [("user", leaf)]).get "user" = some ((c.get "user").getD leaf) := by
  have hstep : fillFrom vs c [("user", leaf)] = c.orInsert "user" leaf := by
    simp [fillFrom]
  rw [hstep, Members.get_orInsert]
  cases c.get "user" <;> simp

/-- A mapper of `user` itself reads what userinfo has there, unless the browser's object is in its
place. -/
lemma oidc_of_flat (hkind : idp.kind = .oidc)
    (hendpoint : idp.tokenEndpoint ≠ none) (huri : idp.jwksUri ≠ none)
    (hinfo : idp.userinfoEndpoint ≠ none) (hasked : ¬ InEveryIdToken idp.mappers.emailClaim)
    (htells : Tells idp path leaf) (huser : ReadsUser path)
    (hflat : ¬ Descends path) : ¬ ProviderOnly idp := by
  have hid := idTokenClaims_bareToken hkind huri (t := bothTokens) rfl (.object [])
    (.object [("user", leaf)]) ""
  obtain ⟨hnone, hsome⟩ := collected_user [] idp (Or.inr rfl)
  have h₁ := withUserinfo_answering hinfo (Or.inr (claim_bareToken idp "" hasked)) bothTokens
    [("user", leaf)] "bearer" (some attacker)
  -- In the second run the email mapper may itself find the browser's object, and then userinfo is
  -- not asked; the object stays at `user` either way.
  obtain ⟨c₂, h₂, hobject⟩ : ∃ c₂, withUserinfo (answering bothTokens (.object [("user", leaf)])) idp
      (some "bearer") (some attacker)
      (collected (reading (.object []) (bareToken idp "")) (some "") (some (bareToken idp ""))) =
        .ok c₂ ∧ c₂.get "user" = some (.object []) := by
    by_cases hmissing : claim (collected (reading (.object []) (bareToken idp "")) (some "")
        (some (bareToken idp ""))) idp.mappers.emailClaim = none
    · refine ⟨_, withUserinfo_answering hinfo (Or.inr hmissing) _ _ _ _, ?_⟩
      rw [fillFrom_user, hsome]
      rfl
    · refine ⟨_, withUserinfo_unasked (Or.inr (Or.inr ⟨by simp [hkind], hmissing⟩)), hsome⟩
  refine not_providerOnly hendpoint (.object []) hid h₁ h₂ (htells.established_ne ?_ rfl rfl)
  refine shown_of_flat huser hflat ?_ hobject
  rw [fillFrom_user]
  exact congrArg (fun v : Option Value => some (v.getD leaf)) hnone

/-! ## Plain OAuth 2.0 providers -/

lemma idTokenClaims_oauth2 (hkind : idp.kind = .oauth2) (p : Platform)
    (x : Exchange) (nonce : String) (tokens : Value) :
    idTokenClaims p x idp nonce tokens = .ok none := by
  simp [idTokenClaims, hkind]

lemma established_ne_of_subject (h : Shown (.string attacker) (claim c₁ idp.mappers.subjectClaim)
      (claim c₂ idp.mappers.subjectClaim)) :
    established (establish p idp none c₁) ≠ established (establish p idp none c₂) := by
  rcases h with ⟨h₁, h₂⟩ | ⟨h₁, m, h₂⟩
  · rw [established_establish, established_attacker (c := c₂) (by simp [subjectOf, h₂, scalarText])]
    simp [subjectOf, h₁]
  · rw [established_attacker (c := c₁) (by simp [subjectOf, h₁, scalarText]), established_establish]
    simp [subjectOf, h₂, scalarText]

lemma oauth2_of_subject (hkind : idp.kind = .oauth2) (hendpoint : idp.tokenEndpoint ≠ none)
    (hexposed : Exposed idp.userinfoEndpoint.isSome idp.mappers.subjectClaim) :
    ¬ ProviderOnly idp := by
  obtain ⟨huser, hreach⟩ := hexposed
  by_cases hdescends : Descends idp.mappers.subjectClaim
  · obtain ⟨m, hshown⟩ := shown_of_descends huser hdescends (.string attacker)
    obtain ⟨hnone, hsome⟩ := collected_user m idp (Or.inl rfl)
    exact not_providerOnly hendpoint (.object m)
      (idTokenClaims_oauth2 hkind _ (answering .null .null) "" .null)
      (withUserinfo_unasked (Or.inr (Or.inl rfl))) (withUserinfo_unasked (Or.inr (Or.inl rfl)))
      (established_ne_of_subject (hshown hnone hsome))
  · have hinfo : idp.userinfoEndpoint ≠ none :=
      Option.isSome_iff_ne_none.mp (hreach.resolve_left hdescends)
    obtain ⟨hnone, hsome⟩ := collected_user [] idp (Or.inl rfl)
    have hasked := fun c => withUserinfo_answering (c := c) hinfo (Or.inl hkind) bothTokens
      [("user", .string attacker)] "bearer" none
    refine not_providerOnly hendpoint (.object []) (idTokenClaims_oauth2 hkind _ _ "" bothTokens)
      (hasked _) (hasked _)
      (established_ne_of_subject (shown_of_flat huser hdescends (m := []) ?_ ?_))
    · rw [fillFrom_user, hnone]
      rfl
    · rw [fillFrom_user, hsome]
      rfl

lemma exists_subject_claim (hsubject : ¬ ReadsUser idp.mappers.subjectClaim) :
    ∃ (k : String) (v : Value), ∀ c : Members, AgreeOff c [] →
      subjectOf idp (c.orInsert k v) none = some attacker ∧
        (c.orInsert k v).get "user" = c.get "user" := by
  obtain ⟨first, parts, hsplit⟩ := split_eq_cons idp.mappers.subjectClaim '.'
  rw [ReadsUser, hsplit, List.head?_cons, Option.some.injEq] at hsubject
  refine ⟨first, nested parts (.string attacker), fun c hc => ⟨?_, ?_⟩⟩
  · have hget : (c.orInsert first (nested parts (.string attacker))).get first =
        some (nested parts (.string attacker)) := by
      simp [Members.get_orInsert, hc first hsubject]
    simp only [subjectOf, claim, hsplit, hget]
    change (parts.foldlM Value.member (nested parts (.string attacker))).bind scalarText = _
    rw [foldlM_nested]
    rfl
  · simp [Members.get_orInsert, hsubject]

lemma oauth2_of_tells (hkind : idp.kind = .oauth2)
    (hendpoint : idp.tokenEndpoint ≠ none) (hinfo : idp.userinfoEndpoint ≠ none)
    (hsubject : ¬ ReadsUser idp.mappers.subjectClaim)
    (htells : Tells idp path leaf) (huser : ReadsUser path) : ¬ ProviderOnly idp := by
  obtain ⟨k, v, hkv⟩ := exists_subject_claim hsubject
  have hasked := fun m c => withUserinfo_answering (c := c) hinfo (Or.inl hkind) bothTokens m
    "bearer" none
  by_cases hdescends : Descends path
  · obtain ⟨m, hshown⟩ := shown_of_descends huser hdescends leaf
    obtain ⟨hnone, hsome⟩ := collected_user m idp (Or.inl rfl)
    obtain ⟨hsub₁, huser₁⟩ := hkv _ (browserClaims_get (reading (.object m) (bareToken idp "")) none).1
    obtain ⟨hsub₂, huser₂⟩ :=
      hkv _ (browserClaims_get (reading (.object m) (bareToken idp "")) (some "")).1
    refine not_providerOnly hendpoint (.object m) (idTokenClaims_oauth2 hkind _ _ "" bothTokens)
      (hasked [(k, v)] _) (hasked [(k, v)] _) (htells.established_ne ?_ hsub₁ hsub₂)
    exact hshown (huser₁.trans hnone) (huser₂.trans hsome)
  · have hagree : ∀ u, AgreeOff ((browserClaims (reading (.object []) (bareToken idp "")) u).orInsert
        "user" leaf) [] := by
      intro u j hj
      rw [Members.get_orInsert, if_neg (by simp [Ne.symm hj])]
      exact (browserClaims_get _ u).1 j hj
    obtain ⟨hsub₁, huser₁⟩ := hkv _ (hagree none)
    obtain ⟨hsub₂, huser₂⟩ := hkv _ (hagree (some ""))
    refine not_providerOnly hendpoint (.object []) (idTokenClaims_oauth2 hkind _ _ "" bothTokens)
      (hasked [("user", leaf), (k, v)] _) (hasked [("user", leaf), (k, v)] _)
      (htells.established_ne ?_ hsub₁ hsub₂)
    exact shown_of_flat huser hdescends (huser₁.trans rfl) (huser₂.trans rfl)

/-! ## The result -/

lemma oidc_of_exposed (hkind : idp.kind = .oidc)
    (hendpoint : idp.tokenEndpoint ≠ none) (huri : idp.jwksUri ≠ none)
    {merged : Bool} (htells : Tells idp path leaf) (hexposed : Exposed merged path)
    (hmerged : merged = true →
      idp.userinfoEndpoint ≠ none ∧ ¬ InEveryIdToken idp.mappers.emailClaim) :
    ¬ ProviderOnly idp := by
  obtain ⟨huser, hreach⟩ := hexposed
  by_cases hdescends : Descends path
  · exact oidc_of_descends hkind hendpoint huri htells huser hdescends
  · obtain ⟨hinfo, hasked⟩ := hmerged (hreach.resolve_left hdescends)
    exact oidc_of_flat hkind hendpoint huri hinfo hasked htells huser hdescends

/-- **Which providers' identities come from the provider only.**  Exactly the blind ones: for every
other provider there is a sign-in in which the browser's `user` parameter decides what is
established. -/
theorem identity_from_provider (idp : IdentityProvider)
    (hkind : idp.kind = .oidc ∨ idp.kind = .oauth2) : ProviderOnly idp ↔ BrowserBlind idp := by
  refine ⟨fun h => ?_, BrowserBlind.providerOnly⟩
  by_contra hblind
  simp only [BrowserBlind, not_or] at hblind
  obtain ⟨hendpoint, hblind⟩ := hblind
  have hisSome : ∀ {o : Option String}, o.isSome = true → o ≠ none := Option.isSome_iff_ne_none.mp
  rcases hkind with hkind | hkind
  · rw [if_pos hkind, not_or] at hblind
    obtain ⟨huri, hblind⟩ := hblind
    by_cases hemail : Exposed idp.userinfoEndpoint.isSome idp.mappers.emailClaim
    · refine oidc_of_exposed hkind hendpoint huri (Or.inl ⟨rfl, rfl⟩) hemail (fun hinfo => ?_) h
      exact ⟨hisSome hinfo, fun hin => hin.not_readsUser hemail.1⟩
    · have hverified := not_not.mp fun hv => hblind ⟨hemail, hv⟩
      refine oidc_of_exposed hkind hendpoint huri (Or.inr ⟨rfl, rfl⟩) hverified (fun hm => ?_) h
      simp only [Bool.and_eq_true, Bool.not_eq_true', decide_eq_false_iff_not] at hm
      exact ⟨hisSome hm.1, hm.2⟩
  · rw [if_neg (by simp [hkind])] at hblind
    by_cases hsubject : Exposed idp.userinfoEndpoint.isSome idp.mappers.subjectClaim
    · exact oauth2_of_subject hkind hendpoint hsubject h
    · have hrest := Classical.not_imp.mp fun hrest => hblind ⟨hsubject, hrest⟩
      obtain ⟨hinfo, hreads⟩ := hrest
      have hsub : ¬ ReadsUser idp.mappers.subjectClaim := fun hs => hsubject ⟨hs, Or.inr hinfo⟩
      by_cases hemail : ReadsUser idp.mappers.emailClaim
      · exact oauth2_of_tells hkind hendpoint (hisSome hinfo) hsub (Or.inl ⟨rfl, rfl⟩) hemail h
      · have hverified := not_not.mp fun hv => hreads ⟨hemail, hv⟩
        exact oauth2_of_tells hkind hendpoint (hisSome hinfo) hsub (Or.inr ⟨rfl, rfl⟩) hverified h

def github : IdentityProvider where
  id := 1
  aliasName := "github"
  kind := .oauth2
  preset := some "github"
  tokenEndpoint := some "https://github.com/login/oauth/access_token"
  userinfoEndpoint := some "https://api.github.com/user"
  clientId := "ridm"
  clientSecretSet := true
  tokenEndpointAuthMethod := .clientSecretPost
  trustEmail := true
  mappers := { subject := some "id", username := some "login" }

theorem identity_from_provider_github : ProviderOnly github :=
  (identity_from_provider github (Or.inr rfl)).mpr (Or.inr (by decide))

/-! ## An account taken over -/

def apple : IdentityProvider where
  id := 2
  aliasName := "apple"
  kind := .oidc
  preset := some "apple"
  issuer := some "https://appleid.apple.com"
  tokenEndpoint := some "https://idp.example/t"
  jwksUri := some "https://idp.example/a"
  clientId := "ridm"
  clientSecretSet := true
  tokenEndpointAuthMethod := .clientSecretPost
  trustEmail := true
  mappers := { email := some "user.email" }

def userText : String := "\x7b\"email\":\"victim@example.com\"\x7d"

def applePlatform : Platform :=
  { reading .null (bareToken apple "n-1") with
    fromStr := fun text =>
      if text = userText then some (.object [("email", .string victim)]) else none }

def victimUser : User where
  id := 7
  email := some victim
  emailVerified := true
  status := .active
  lockedUntil := none
  deletedAt := none

/-- **The attacker signs in at the provider as themselves and gets the victim's account**, by the
`user` parameter alone: without it a new account is created. -/
theorem account_taken_over :
    applePlatform.Lawful ∧
    (prove applePlatform (answering idTokenOnly .null) "https://id.example" apple "code"
        ⟨"n-1", none⟩ none).map (chooseAccount 0 ⟨[victimUser], []⟩ apple) =
      .ok (.creates true true, none) ∧
    (prove applePlatform (answering idTokenOnly .null) "https://id.example" apple "code"
        ⟨"n-1", none⟩ (some userText)).map (chooseAccount 0 ⟨[victimUser], []⟩ apple) =
      .ok (.links victimUser, none) ∧
    ¬ ProviderOnly apple := by
  have hlawful : applePlatform.Lawful := lawful_of_bareToken fun _ _ _ _ => rfl
  have hwithout : (prove applePlatform (answering idTokenOnly .null) "https://id.example" apple
      "code" ⟨"n-1", none⟩ none).map (chooseAccount 0 ⟨[victimUser], []⟩ apple) =
        .ok (.creates true true, none) := by
    rfl
  have hwith : (prove applePlatform (answering idTokenOnly .null) "https://id.example" apple
      "code" ⟨"n-1", none⟩ (some userText)).map (chooseAccount 0 ⟨[victimUser], []⟩ apple) =
        .ok (.links victimUser, none) := by
    rfl
  refine ⟨hlawful, hwithout, hwith, fun h => ?_⟩
  have hsame := (h applePlatform hlawful (answering idTokenOnly .null) "https://id.example" "code"
    ⟨"n-1", none⟩ none (some userText)).2 0 ⟨[victimUser], []⟩
  rw [hwithout, hwith] at hsame
  simp at hsame

end Ridm.Broker
