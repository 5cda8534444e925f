import Ridm.Oidc.Impersonation
import Ridm.Tokens.IdToken

/-!
# When impersonation ends

The session of an administrator who signs in as a user ends `until`, and `until` goes with every code
(`acting`).  What `issue_tokens` makes of it is in three places: `issue_access_token` cuts the access
token off there; the refresh token gets what is left, but at least a second, counted from another
reading of the clock; `issue_id_token` does not look at it.  A refresh passes on the end of its family.

Here a request has a reading of the clock for each of them.  `impersonation_ends_iff` says when all that
a chain of code redemptions and refreshes issues ends in time, and `id_token_outlives_impersonation` is
a chain of one redemption that does not.
-/

namespace Ridm.TokenEndpoint

open DeviceCodes (Acting)
open RefreshTokens (IssueRequest Issued RefreshToken Table)
open Tokens (IdTokenClient IdTokenRequest IdTokenService IssuedToken ScopeClaims SigningAlg)

/-! ## Issuing, with the ID token -/

/-- The readings of the clock while tokens are issued: by `issue_access_token`, by `issue_id_token`, for
the lifetime of the refresh token, and by `refresh_tokens::issue`. -/
structure Readings where
  access : Instant
  idToken : Instant
  lifetime : Instant
  family : Instant

def Readings.at (now : Instant) : Readings := ⟨now, now, now, now⟩

/-- What ID tokens are issued with, besides what access tokens are. -/
structure IdTokens where
  /-- `scopes::list`, with what each scope releases. -/
  scopes : List ScopeClaims
  keyAlg : Option SigningAlg → Except AppError SigningAlg
  halfHash : SigningAlg → String → String
  sealToken : SigningAlg → Option String → Members → Except AppError String
  ttlSecs : Client → Option ℤ
  tenantTtlSecs : ℕ
  scopeClaims : Client → Bool
  encryption : Client → Option String

/-- The lifetime of an ID token. -/
def IdTokens.ttl (D : IdTokens) (client : Client) : ℕ :=
  (D.ttlSecs client).elim D.tenantTtlSecs fun s => (max s 1).toNat

/-- `TokenClient` of an issue. -/
def idTokenClient (B : Backend) (D : IdTokens) (i : Issue) : IdTokenClient where
  toTokenClient := tokenClient B i
  idTokenTtl := D.ttl i.client
  idTokenScopeClaims := D.scopeClaims i.client
  idTokenAlg := if i.client.isFapi2 then some (fapiSigningAlg B.settings) else none
  idTokenEncryption := D.encryption i.client

def idTokenService (B : Backend) (D : IdTokens) : IdTokenService where
  toTokenService := B.service
  scopes := D.scopes
  keyAlg := D.keyAlg
  halfHash := D.halfHash
  sealToken := D.sealToken

def idTokenRequest (B : Backend) (D : IdTokens) (i : Issue) (subject : Subject) (nonce : Option String)
    (accessToken : String) (now : Instant) : IdTokenRequest where
  tenant := B.tenant
  client := idTokenClient B D i
  user := subject.user
  scopes := i.scopes
  roles := subject.roles
  groups := subject.groups
  sessionId := i.sessionId
  authTime := i.authTime.getD now
  orgId := i.orgId
  nonce := nonce
  amr := i.amr
  acr := i.acr
  accessToken := some accessToken
  code := none
  act := i.act

/-- The ID token of an issue: for a user, when `openid` was granted. -/
def issueIdTokenOf (B : Backend) (D : IdTokens) (i : Issue) (nonce : Option String)
    (accessToken : String) (now : Instant) : Except OAuthError (Option IssuedToken) :=
  match i.subject with
  | some subject =>
      if i.scopes.any (· == "openid") then
        (liftApp (Tokens.issueIdToken (idTokenService B D)
          (idTokenRequest B D i subject nonce accessToken now) now)).map some
      else .ok none
  | none => .ok none

/-- `issue_tokens`, with its readings of the clock, less the record of what a code produced. -/
def issueAll (B : Backend) (D : IdTokens) (i : Issue) (nonce : Option String) (draws : Draws)
    (clock : Readings) (tokens : Table) :
    Except OAuthError (Table × Minted × Option IssuedToken) := do
  let access ← issueAccess B i draws.jti clock.access
  let idToken ← issueIdTokenOf B D access.1 nonce access.2.token clock.idToken
  match refreshRequest B access.1 clock.lifetime with
  | none => .ok (tokens, ⟨access.2, none, access.1.scopes⟩, idToken)
  | some req => do
      let issued ← liftApp (RefreshTokens.issue B.hash tokens B.tenant.id req draws.familyId
        draws.refresh clock.family)
      .ok (issued.1, ⟨access.2, some issued.2, access.1.scopes⟩, idToken)

/-! ## Chains -/

/-- A token request, with what it reads beyond `Request`. -/
structure TimedRequest where
  request : Request
  idTokens : IdTokens
  clock : Readings

/-- A redemption or a refresh. -/
inductive Use
  | code (q : TimedRequest) (record : AuthCode) (nonce : Option String)
  | refresh (q : TimedRequest)

/-- The request. -/
def Use.timed : Use → TimedRequest
  | .code q _ _ | .refresh q => q

/-- What was issued from a session. -/
structure Yield where
  access : List IssuedToken
  idTokens : List IssuedToken
  refresh : Table

/-- Nothing issued yet. -/
def Yield.empty : Yield := ⟨[], [], []⟩

/-- What `issue_tokens` is called with. -/
structure Call where
  issue : Issue
  nonce : Option String
  tokens : Table

/-- What `redeem` leaves of the refresh tokens, and answers. -/
def Yield.redeemed (s : Yield) (r : Request) (req : RefreshTokens.RedeemRequest) :
    Table × Except OAuthError Issued :=
  RefreshTokens.redeem r.backend.hash s.refresh req r.backend.sessions r.draws.refresh r.now

/-- A request up to `issue_tokens`. -/
def Yield.call (s : Yield) : Use → Option Call
  | .code q record nonce => (codeIssue q.request record).toOption.map fun i => ⟨i, nonce, s.refresh⟩
  | .refresh q => do
      let r := q.request
      let req ← (refreshGrant r.backend r.client r.params r.proof).toOption
      let redeemed := s.redeemed r req
      let rotated ← redeemed.2.toOption
      let i ← (redeemRefresh r.backend r.client r.proof req rotated).toOption
      some ⟨i, none, redeemed.1⟩

/-- The refresh tokens when no tokens are issued: what `redeem` has committed stays. -/
def Yield.left (s : Yield) : Use → Table
  | .code .. => s.refresh
  | .refresh q =>
      match refreshGrant q.request.backend q.request.client q.request.params q.request.proof with
      | .error _ => s.refresh
      | .ok req => (s.redeemed q.request req).1

/-- What `issue_tokens` answers to a request, as far as it comes there. -/
def Yield.answer (s : Yield) (u : Use) : Option (Call × Table × Minted × Option IssuedToken) := do
  let c ← s.call u
  let q := u.timed
  let r ← (issueAll q.request.backend q.idTokens c.issue c.nonce q.request.draws q.clock
    c.tokens).toOption
  some (c, r)

/-- One request. -/
def Yield.step (s : Yield) (u : Use) : Yield :=
  match s.answer u with
  | none => { s with refresh := s.left u }
  | some (_, tokens, minted, idToken) =>
      ⟨s.access ++ [minted.access], s.idTokens ++ idToken.toList, tokens⟩

/-- Chains of redemptions and refreshes. -/
def uses : Machine Yield Use := ⟨fun s u => some (s.step u)⟩

/-- A code is of the session that ends `ends`. -/
def Use.EndsWith (ends : Instant) : Use → Prop
  | .code _ record _ => ∃ act, record.acting = some ⟨act, ends⟩
  | .refresh _ => True

/-- The `exp` of a token. -/
def expOf (t : IssuedToken) : Instant := seconds (unixTime t.expiresAt)

/-- All that was issued expires no later than `ends`. -/
structure Yield.EndsBy (ends : Instant) (s : Yield) : Prop where
  access : ∀ t ∈ s.access, t.expiresAt ≤ ends
  idTokens : ∀ t ∈ s.idTokens, expOf t ≤ ends
  refresh : ∀ row ∈ s.refresh, row.expiresAt ≤ ends

/-! ## The condition -/

/-- The scopes that are granted of those of an issue. -/
def grantedScopes (B : Backend) (i : Issue) : List String :=
  filterForAudience i.scopes B.scopes i.audience.resourceServerIds i.audience.offlineAllowed

/-- The lifetime of a refresh token, but for the end of the session. -/
def refreshTtl (B : Backend) (client : Client) : ℤ :=
  seconds (client.refreshTokenTtlSecs.elim B.settings.refreshTokenTtlSecs (max · 1))

/-- An ID token, if there is to be one, is over in time by itself. -/
def IdTokenInTime (ends : Instant) (q : TimedRequest) (i : Issue) : Prop :=
  i.subject.isSome = true → (grantedScopes q.request.backend i).any (· == "openid") = true →
    seconds (unixTime (q.clock.idToken + seconds (q.idTokens.ttl i.client))) ≤ ends

/-- For a refresh token, if there is to be one, a second is left, and its lifetime is over in time by
itself or is counted on from the moment it was cut at. -/
def RefreshInTime (ends : Instant) (q : TimedRequest) (i : Issue) : Prop :=
  i.issueRefresh = true → i.client.allowedGrants.contains REFRESH_TOKEN = true →
    q.clock.family + seconds 1 ≤ ends ∧
      (q.clock.family + refreshTtl q.request.backend i.client ≤ ends ∨ q.clock.family ≤ q.clock.lifetime)

/-- A request that is answered with tokens is in time. -/
def InTime (ends : Instant) (s : Yield) (u : Use) : Prop :=
  ∀ a ∈ s.answer u, IdTokenInTime ends u.timed a.1.issue ∧ RefreshInTime ends u.timed a.1.issue

instance (ends : Instant) (s : Yield) (u : Use) : Decidable (InTime ends s u) := by
  unfold InTime IdTokenInTime RefreshInTime
  infer_instance

/-! ## What one issue comes to -/

lemma cut_le_iff {family lifetime ends ttl one : ℤ} :
    family + max (min ttl (ends - lifetime)) one ≤ ends ↔
      family + one ≤ ends ∧ (family + ttl ≤ ends ∨ family ≤ lifetime) := by
  omega

section Issuing

variable {B : Backend} {D : IdTokens} {i : Issue} {q : TimedRequest} {nonce : Option String}
  {draws : Draws} {clock : Readings} {now ends limit : Instant} {tokens : Table}

/-- **Access tokens are cut off in time.** -/
lemma access_expiresAt_le {jti : Uuid} {r : Issue × IssuedToken}
    (h : issueAccess B i jti now = .ok r) (hlimit : i.notAfter = some limit) :
    r.2.expiresAt ≤ limit := by
  obtain ⟨hissue, htoken⟩ := issueAccess_ok h
  rw [(Tokens.issueAccessToken_ok htoken).2.1, Tokens.accessExpiry]
  have hnotAfter : (accessRequest B r.1).client.notAfter = some limit := by
    rw [accessRequest, tokenClient, hissue]
    exact hlimit
  simp only [hnotAfter, Option.elim_some]
  exact Int.min_le_right _ _

lemma issueAccess_granted {jti : Uuid} {r : Issue × IssuedToken}
    (h : issueAccess B i jti now = .ok r) : r.1 = { i with scopes := grantedScopes B i } := by
  simp only [issueAccess, bind_eq_ok] at h
  obtain ⟨_, _, token, _, h⟩ := h
  cases h
  rfl

/-- **ID tokens** last for their own lifetime, whatever the session. -/
lemma idToken_ends_iff {accessToken : String} {idToken : Option IssuedToken}
    (h : issueIdTokenOf B D i nonce accessToken now = .ok idToken) :
    (∀ t ∈ idToken, expOf t ≤ ends) ↔ (i.subject.isSome = true → i.scopes.any (· == "openid") = true →
      seconds (unixTime (now + seconds (D.ttl i.client))) ≤ ends) := by
  rw [issueIdTokenOf] at h
  cases hsubject : i.subject with
  | none =>
      rw [hsubject] at h
      cases h
      simp
  | some subject =>
      simp only [hsubject] at h
      split_ifs at h with hopenid
      · cases htoken : Tokens.issueIdToken (idTokenService B D)
          (idTokenRequest B D i subject nonce accessToken now) now with
        | error e =>
            rw [htoken] at h
            cases h
        | ok t =>
            rw [htoken] at h
            cases h
            obtain ⟨_, _, _, hexp⟩ := Tokens.issueIdToken_ok htoken
            simp only [Option.mem_def, Option.some.injEq, forall_eq', expOf, hexp]
            exact ⟨fun hle _ _ => hle, fun hle => hle rfl hopenid⟩
      · cases h
        exact iff_of_true (fun t ht => absurd ht (Option.not_mem_none t))
          fun _ hopenid' => absurd hopenid' hopenid

lemma refreshRequest_ttl (hlimit : i.notAfter = some limit) :
    (∃ req, refreshRequest B i now = some req ∧ req.act = i.act ∧
        req.ttl = max (min (refreshTtl B i.client) (limit - now)) (seconds 1) ∧
        i.issueRefresh = true ∧ i.client.allowedGrants.contains REFRESH_TOKEN = true) ∨
      refreshRequest B i now = none ∧
        ¬ (i.issueRefresh = true ∧ i.client.allowedGrants.contains REFRESH_TOKEN = true) := by
  by_cases hrefresh : (i.issueRefresh && i.client.allowedGrants.contains REFRESH_TOKEN) = true
  · rw [refreshRequest, if_pos hrefresh]
    rw [Bool.and_eq_true] at hrefresh
    refine .inl ⟨_, rfl, rfl, ?_, hrefresh⟩
    rw [hlimit]
    rfl
  · rw [refreshRequest, if_neg hrefresh]
    rw [Bool.and_eq_true] at hrefresh
    exact .inr ⟨rfl, hrefresh⟩

/-- **What is issued**: the access token ends in time, and the rest does when the request is in time. -/
lemma issueAll_ends {r : Table × Minted × Option IssuedToken}
    (h : issueAll q.request.backend q.idTokens i nonce draws q.clock tokens = .ok r)
    (hlimit : i.notAfter = some limit) (hle : limit ≤ ends) (hfamily : i.issueRefresh = true → limit = ends)
    (hact : i.act.isSome = true) (hacts : ∀ row ∈ tokens, row.act.isSome = true)
    (htokens : ∀ row ∈ tokens, row.expiresAt ≤ ends) :
    (∀ row ∈ r.1, row.act.isSome = true) ∧ r.2.1.access.expiresAt ≤ ends ∧
      ((∀ t ∈ r.2.2, expOf t ≤ ends) ∧ (∀ row ∈ r.1, row.expiresAt ≤ ends) ↔
        IdTokenInTime ends q i ∧ RefreshInTime ends q i) := by
  simp only [issueAll, bind_eq_ok] at h
  obtain ⟨⟨granted, access⟩, haccess, idToken, hid, h⟩ := h
  have hend := Int.le_trans (access_expiresAt_le haccess hlimit) hle
  obtain rfl : granted = _ := issueAccess_granted haccess
  have hids : (∀ t ∈ idToken, expOf t ≤ ends) ↔ IdTokenInTime ends q i := idToken_ends_iff hid
  rcases @refreshRequest_ttl q.request.backend { i with scopes := grantedScopes q.request.backend i }
    q.clock.lifetime _ hlimit with
    ⟨req, hreq, hreqact, httl, hissue, hallowed⟩ | ⟨hreq, hnone⟩
  · simp only [hreq, bind_eq_ok, liftApp_eq_ok] at h
    obtain ⟨issued, hissued, h⟩ := h
    cases h
    rw [RefreshTokens.issue] at hissued
    have hrows := RefreshTokens.insertIn_ok hissued
    obtain rfl := hfamily hissue
    refine ⟨fun row hrow => ?_, hend, and_congr hids ?_⟩
    · rw [hrows, List.mem_append, List.mem_singleton] at hrow
      rcases hrow with hrow | rfl
      · exact hacts row hrow
      · exact (congrArg Option.isSome hreqact).trans hact
    · have hnew : (∀ row ∈ issued.1, row.expiresAt ≤ limit) ↔ q.clock.family + req.ttl ≤ limit := by
        rw [hrows]
        constructor
        · intro hall
          exact hall _ (List.mem_append_right _ List.mem_cons_self)
        · intro hle row hrow
          rw [List.mem_append, List.mem_singleton] at hrow
          rcases hrow with hrow | rfl
          · exact htokens row hrow
          · exact hle
      rw [hnew, httl, cut_le_iff]
      exact ⟨fun hin _ _ => hin, fun hin => hin hissue hallowed⟩
  · rw [hreq] at h
    cases h
    exact ⟨hacts, hend, and_congr hids (iff_of_true htokens
      fun hissue hallowed => absurd ⟨hissue, hallowed⟩ hnone)⟩

end Issuing

/-! ## What one request comes to -/

section Steps

variable {ends : Instant} {s : Yield} {u : Use} {c : Call}

lemma redeemCode_notAfter {B : Backend} {client : Client} {params : RawParams}
    {proof : RefreshTokens.SenderProof} {req : CodeRequest} {record : AuthCode} {now : Instant} {i : Issue}
    (h : redeemCode B client params proof req record now = .ok i) :
    i.notAfter = record.acting.map Acting.until_ := by
  simp only [redeemCode, bind_eq_ok] at h
  obtain ⟨_, _, _, _, _, _, _, _, _, _, _, _, _, _, _, _, _, _, h⟩ := h
  cases h
  rfl

lemma redeemRefresh_notAfter {B : Backend} {client : Client} {proof : RefreshTokens.SenderProof}
    {req : RefreshTokens.RedeemRequest} {rotated : Issued} {i : Issue}
    (h : redeemRefresh B client proof req rotated = .ok i) :
    i.notAfter = rotated.record.act.map fun _ => rotated.record.expiresAt := by
  simp only [redeemRefresh, bind_eq_ok] at h
  obtain ⟨_, _, _, _, h⟩ := h
  cases h
  rfl

/-- A row of an impersonated session that ends in time. -/
def Ending (ends : Instant) (row : RefreshToken) : Prop := row.act.isSome = true ∧ row.expiresAt ≤ ends

lemma lasting_ending : RefreshTokens.Lasting (Ending ends) := by
  rintro t t' - hgrant ⟨hact, hle⟩
  have hact' : t'.act = t.act := congrArg RefreshTokens.Grant.act hgrant
  have hexp : t'.expiresAt = t.expiresAt := congrArg RefreshTokens.Grant.expiresAt hgrant
  exact ⟨hact' ▸ hact, hexp ▸ hle⟩

lemma Yield.left_ending (h : ∀ row ∈ s.refresh, Ending ends row) : ∀ row ∈ s.left u, Ending ends row := by
  cases u with
  | code => exact h
  | refresh q =>
      rw [Yield.left]
      split
      · exact h
      · exact lasting_ending.redeem h _ _ _ _ _

/-- **How the end is passed on** to `issue_tokens`: exactly where a family is started, and otherwise as
the end of the family, which is no later. -/
lemma Yield.call_spec (hu : u.EndsWith ends) (h : ∀ row ∈ s.refresh, Ending ends row)
    (hcall : s.call u = some c) :
    (∃ limit, c.issue.notAfter = some limit ∧ limit ≤ ends ∧
        (c.issue.issueRefresh = true → limit = ends)) ∧
      c.issue.act.isSome = true ∧ ∀ row ∈ c.tokens, Ending ends row := by
  cases u with
  | code q record nonce =>
      obtain ⟨i, hissue, rfl⟩ := Option.map_eq_some_iff.mp hcall
      rw [toOption_eq_some, codeIssue] at hissue
      obtain ⟨req, -, hissue⟩ := bind_eq_ok.mp hissue
      obtain ⟨act, hacting⟩ := hu
      have hnotAfter := redeemCode_notAfter hissue
      have hact := redeemCode_act hissue
      rw [hacting] at hnotAfter hact
      exact ⟨⟨ends, hnotAfter, Int.le_refl _, fun _ => rfl⟩, congrArg Option.isSome hact, h⟩
  | refresh q =>
      simp only [Yield.call, Option.bind_eq_bind, Option.bind_eq_some_iff, toOption_eq_some,
        Option.some.injEq] at hcall
      obtain ⟨req, -, rotated, hrotated, i, hissue, rfl⟩ := hcall
      obtain ⟨t, ht⟩ := RefreshTokens.accepts_of_redeem hrotated
      obtain ⟨hact, hexp⟩ := lasting_ending t rotated.record (ht.grant_eq hrotated).2
        (ht.grant_eq hrotated).1 (h t (RefreshTokens.findByHash_spec ht.found).1)
      obtain ⟨hrefresh, hissueAct⟩ := redeemRefresh_act hissue
      obtain ⟨act, hact'⟩ := Option.isSome_iff_exists.mp hact
      refine ⟨⟨rotated.record.expiresAt, ?_, hexp, fun hstarts => ?_⟩, hissueAct ▸ hact,
        lasting_ending.redeem h _ _ _ _ _⟩
      · rw [redeemRefresh_notAfter hissue, hact']
        rfl
      · exact absurd (hrefresh.symm.trans hstarts) Bool.false_ne_true

/-- **One request** issues nothing that is late exactly when it is in time. -/
lemma Yield.step_ends (hu : u.EndsWith ends) (hacts : ∀ row ∈ s.refresh, row.act.isSome = true)
    (h : s.EndsBy ends) : (∀ row ∈ (s.step u).refresh, row.act.isSome = true) ∧
      ((s.step u).EndsBy ends ↔ InTime ends s u) := by
  have hrows : ∀ row ∈ s.refresh, Ending ends row := fun row hrow => ⟨hacts row hrow, h.refresh row hrow⟩
  cases hanswer : s.answer u with
  | none =>
      have hleft := Yield.left_ending (u := u) hrows
      simp only [Yield.step, InTime, hanswer]
      exact ⟨fun row hrow => (hleft row hrow).1, iff_of_true
        ⟨h.access, h.idTokens, fun row hrow => (hleft row hrow).2⟩ (fun a ha => by cases ha)⟩
  | some a =>
      obtain ⟨c, tokens, minted, idToken⟩ := a
      have hparts := hanswer
      simp only [Yield.answer, Option.bind_eq_bind, Option.bind_eq_some_iff, toOption_eq_some,
        Option.some.injEq, Prod.mk.injEq] at hparts
      obtain ⟨c', hcall, r, hissue, rfl, rfl⟩ := hparts
      obtain ⟨⟨limit, hlimit, hle, hfamily⟩, hact, htokens⟩ := Yield.call_spec hu hrows hcall
      obtain ⟨hacts', hend, hiff⟩ := issueAll_ends hissue hlimit hle hfamily hact
        (fun row hrow => (htokens row hrow).1) fun row hrow => (htokens row hrow).2
      simp only [Yield.step, InTime, hanswer, Option.mem_def, Option.some.injEq, forall_eq']
      refine ⟨hacts', ?_⟩
      rw [← hiff]
      constructor
      · intro hall
        refine ⟨fun t ht => hall.idTokens t ?_, hall.refresh⟩
        exact List.mem_append_right _ (Option.mem_toList.mpr ht)
      · rintro ⟨hids, hrefresh⟩
        refine ⟨fun t ht => ?_, fun t ht => ?_, hrefresh⟩
        · rw [List.mem_append, List.mem_singleton] at ht
          rcases ht with ht | rfl
          · exact h.access t ht
          · exact hend
        · rcases List.mem_append.mp ht with ht | ht
          · exact h.idTokens t ht
          · exact hids t (Option.mem_toList.mp ht)

end Steps

/-! ## Whole chains -/

/-- **Impersonation ends on time**, as long as requests are in time: in every chain of redemptions of
codes of a session that ends `ends`, and of refreshes, whatever was issued has never a later end exactly
when each request that is answered with an ID token would by its lifetime not reach past `ends`, and each
that starts a family leaves it a second and counts its lifetime from where it was cut. -/
theorem impersonation_ends_iff (ends : Instant) (chain : List Use) (s : Yield)
    (hends : ∀ u ∈ chain, u.EndsWith ends) (hrun : uses.run .empty chain = some s) :
    (∀ before after t, chain = before ++ after → uses.run .empty before = some t → t.EndsBy ends) ↔
      uses.Meets (InTime ends) .empty chain := by
  refine Machine.always_iff_meets (A := Use.EndsWith ends)
    (I := fun s => ∀ row ∈ s.refresh, row.act.isSome = true) ?_ hends hrun ?_ ?_
  · intro s u s' hu hacts h hstep
    cases hstep
    exact Yield.step_ends hu hacts h
  · exact fun row hrow => absurd hrow List.not_mem_nil
  · exact ⟨fun t ht => absurd ht List.not_mem_nil, fun t ht => absurd ht List.not_mem_nil,
      fun row hrow => absurd hrow List.not_mem_nil⟩

/-! ## A redemption and a refresh -/

def refreshingApp : Client :=
  { sampleApp with allowedGrants := ["authorization_code", REFRESH_TOKEN], allowedScopes := ["openid"] }

def fiveMinutes : IdTokens where
  scopes := []
  keyAlg _ := .ok .es256
  halfHash _ _ := "half"
  sealToken _ _ _ := .ok "id"
  ttlSecs _ := none
  tenantTtlSecs := 300
  scopeClaims _ := false
  encryption _ := none

def requestAt (now : ℤ) (draws : Draws) (params : RawParams) : TimedRequest where
  request :=
    { backend := { plainBackend (fun _ => .ok "at") fun _ => [] with hash := RefreshTokens.sha256 }
      client := refreshingApp
      params := params
      proof := ⟨none, none⟩
      draws := draws
      now := seconds now }
  idTokens := fiveMinutes
  clock := .at (seconds now)

def codeUntil (ends : ℤ) : AuthCode :=
  { sampleRecord with
    scopes := ["openid"], acting := some ⟨actClaim sampleAdmin sampleIssuer, seconds ends⟩ }

def redeemsUntil (ends : ℤ) : Use :=
  .code (requestAt 100 ⟨32, 40, ⟨41, "rt_first"⟩⟩
    [("code", "c"), ("redirect_uri", "https://app.example/cb")]) (codeUntil ends) (some "n")

def refreshes : Use :=
  .refresh (requestAt 200 ⟨33, 0, ⟨42, "rt_second"⟩⟩ [("refresh_token", "rt_first")])

/-- With hours left, all tokens end in time. -/
theorem impersonation_ends_refreshed : ∃ s, uses.run .empty [redeemsUntil 9000, refreshes] = some s ∧
    s.access.length = 2 ∧ s.idTokens.length = 2 ∧ s.refresh.length = 2 ∧ s.EndsBy (seconds 9000) := by
  have hends : ∀ u ∈ [redeemsUntil 9000, refreshes], u.EndsWith (seconds 9000) := by
    rw [List.forall_mem_cons, List.forall_mem_singleton]
    exact ⟨⟨_, rfl⟩, trivial⟩
  have hany : (uses.run .empty [redeemsUntil 9000, refreshes]).any (fun s =>
      s.access.length == 2 && s.idTokens.length == 2 && s.refresh.length == 2) = true := by decide +kernel
  obtain ⟨s, hrun, hlengths⟩ := Machine.exists_run_of_any hany
  simp only [Bool.and_eq_true, beq_iff_eq] at hlengths
  exact ⟨s, hrun, hlengths.1.1, hlengths.1.2, hlengths.2,
    (impersonation_ends_iff (seconds 9000) _ s hends hrun).mpr (by decide +kernel) _ [] s
      (List.append_nil _).symm hrun⟩

/-- **An ID token outlives the impersonation**: fifty seconds before the session of the administrator
ends, a code is redeemed for an ID token of five minutes. -/
theorem id_token_outlives_impersonation :
    ¬ ∀ (ends : Instant) (chain : List Use) (s : Yield), (∀ u ∈ chain, u.EndsWith ends) →
      uses.run .empty chain = some s → s.EndsBy ends := by
  intro h
  have hends : ∀ u ∈ [redeemsUntil 150], u.EndsWith (seconds 150) := by
    rw [List.forall_mem_singleton]
    exact ⟨_, rfl⟩
  have hany : (uses.run .empty [redeemsUntil 150]).any (fun s =>
      s.idTokens.any fun t => decide (seconds 150 < expOf t)) = true := by decide +kernel
  obtain ⟨s, hrun, hlate⟩ := Machine.exists_run_of_any hany
  obtain ⟨t, ht, hlate⟩ := List.any_eq_true.mp hlate
  exact absurd ((h _ _ s hends hrun).idTokens t ht) (Int.not_le.mpr (of_decide_eq_true hlate))

end Ridm.TokenEndpoint
