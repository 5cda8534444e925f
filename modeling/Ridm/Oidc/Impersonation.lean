import Ridm.Oidc.Grants

/-!
# Impersonation along a chain of grants

An administrator who signs in as a user gets codes and device approvals that carry `acting`
(`api/src/services/impersonation.rs`), and `every token minted from the session carries act naming
the administrator`.  A chain starts from such codes and approvals, and goes on through refresh and
token exchange grants that present what the chain has issued.

A token exchange rebuilds `act` out of the actor token, and without one the new token has none.
`act_names_administrator_iff` is the exact condition over every chain, and
`impersonation_laundered` a chain of two requests that loses the administrator.
-/

namespace Ridm.TokenEndpoint

open DeviceCodes (Acting Approval DeviceRecord)
open RefreshTokens (Issued RedeemRequest RefreshToken SenderProof Table)
open Sessions (Impersonator SsoSession)
open Tokens (IssuedToken uuidText)

/-! ## The administrator in `act` -/

def actClaim (imp : Impersonator) (issuer : String) : Value :=
  .object [("sub", .string (uuidText imp.userId)), ("iss", .string issuer)]

/-- `acting`: what tokens minted from a session carry. -/
def acting (issuerOf : Uuid → Option String) (session : SsoSession) :
    Except AppError (Option Acting) :=
  match session.impersonator with
  | none => .ok none
  | some imp =>
      match issuerOf imp.tenantId with
      | none => .error (.notFound "tenant")
      | some issuer => .ok (some ⟨actClaim imp issuer, session.expiresAt⟩)

/-- `admin` is in the nested chain of an `act`. -/
inductive Names (admin : Value) : Value → Prop
  | outermost : Names admin admin
  | inside {v inner : Value} : v.member "act" = some inner → Names admin inner → Names admin v

/-- There is an `act`, and it names `admin`. -/
def Named (admin : Value) (act : Option Value) : Prop := ∃ v, act = some v ∧ Names admin v

/-- The claims carry an `act` that names `admin`. -/
def Carries (admin : Value) (claims : Members) : Prop := Named admin (claims.get "act")

/-! ## Chains -/

/-- The grants that issue tokens. -/
inductive Grant
  | authorizationCode (r : Request) (record : AuthCode)
  | deviceCode (r : Request) (record : DeviceRecord) (approval : Approval)
  | refreshToken (r : Request)
  | tokenExchange (r : Request)

/-- The access tokens a chain has issued, and its rows of `refresh_tokens`. -/
structure Chain where
  access : List IssuedToken
  refresh : Table
  deriving DecidableEq

/-- Nothing issued yet. -/
def Chain.empty : Chain := ⟨[], []⟩

/-- Issue what a grant came to; nothing where that is refused. -/
def Chain.issue (s : Chain) (r : Request) (i : Issue) : Option Chain :=
  match issueTokens r.backend i r.draws r.now s.refresh with
  | .ok (tokens, minted) => some ⟨s.access ++ [minted.access], tokens⟩
  | .error _ => none

/-- The `Issue` of a code, with the parameters read. -/
def codeIssue (r : Request) (record : AuthCode) : Except OAuthError Issue := do
  let req ← codeRequest r.params
  redeemCode r.backend r.client r.params r.proof req record r.now

/-- The `Issue` of an exchange whose subject token the chain has issued. -/
def Chain.exchangeIssue (s : Chain) (r : Request) : Option Issue :=
  match subjectToken r.client r.params with
  | .ok token =>
      if s.access.any fun t => t.token == token then
        (tokenExchange r.backend r.client r.params r.proof r.now).toOption
      else none
  | .error _ => none

/-- A refresh, from what `redeem` answers.  A request refused after the redemption leaves the table as
the redemption left it. -/
def Chain.refreshed (s : Chain) (r : Request) (req : RedeemRequest) : Chain :=
  let redeemed := RefreshTokens.redeem r.backend.hash s.refresh req r.backend.sessions r.draws.refresh
    r.now
  let left : Chain := ⟨s.access, redeemed.1⟩
  match redeemed.2 with
  | .error _ => left
  | .ok rotated =>
      match redeemRefresh r.backend r.client r.proof req rotated with
      | .error _ => left
      | .ok i => (left.issue r i).getD left

/-- One grant.  Refused requests that leave no trace are no steps. -/
def Chain.step (s : Chain) : Grant → Option Chain
  | .authorizationCode r record => (codeIssue r record).toOption.bind (s.issue r)
  | .deviceCode r record approval =>
      (redeemDevice r.backend r.client r.params r.proof record approval).toOption.bind (s.issue r)
  | .refreshToken r =>
      (refreshGrant r.backend r.client r.params r.proof).toOption.map (s.refreshed r)
  | .tokenExchange r => (s.exchangeIssue r).bind (s.issue r)

def chains : Machine Chain Grant := ⟨Chain.step⟩

def Grant.request : Grant → Request
  | .authorizationCode r _ | .deviceCode r _ _ | .refreshToken r | .tokenExchange r => r

/-- A code or an approval of a session in which `imp` acts. -/
def Grant.Impersonated (imp : Impersonator) (issuer : String) : Grant → Prop
  | .authorizationCode _ record => ∃ ends, record.acting = some ⟨actClaim imp issuer, ends⟩
  | .deviceCode _ _ approval => ∃ ends, approval.acting = some ⟨actClaim imp issuer, ends⟩
  | .refreshToken _ | .tokenExchange _ => True

def Grant.PresentsActor : Grant → Prop
  | .tokenExchange r => ∃ token, one r.params "actor_token" = .ok (some token)
  | _ => True

/-! ## What one grant does -/

section Steps

variable {admin : Value} {claimsOf : String → Members} {s s' : Chain} {r : Request} {i : Issue}

lemma Names.actOf {actor subject : Members} (h : Carries admin subject) :
    Names admin (actOf actor subject) := by
  obtain ⟨v, hv, hnames⟩ := h
  refine .inside ?_ hnames
  simp [TokenEndpoint.actOf, Value.member, hv, Members.insertSome, Members.get_insert]

/-- The rows of the chain name the administrator, and its tokens stand for their claims. -/
structure Chain.Sound (admin : Value) (claimsOf : String → Members) (s : Chain) : Prop where
  rows : ∀ row ∈ s.refresh, Named admin row.act
  stands : ∀ t ∈ s.access, claimsOf t.token = t.claims

/-- All access tokens of the chain carry the administrator. -/
def Chain.Carrying (admin : Value) (s : Chain) : Prop := ∀ t ∈ s.access, Carries admin t.claims

/-- **Issuing.**  The new token has the `act` of its issue, and so have the new rows. -/
lemma Chain.issue_spec (hfaithful : Faithful claimsOf r) (h : s.Sound admin claimsOf)
    (hrows : i.issueRefresh = true → Named admin i.act) (hstep : s.issue r i = some s') :
    s'.Sound admin claimsOf ∧ ∃ t : IssuedToken, s'.access = s.access ++ [t] ∧ t.claims.get "act" = i.act := by
  rw [Chain.issue] at hstep
  split at hstep
  swap
  · cases hstep
  next tokens minted hissue =>
    cases hstep
    obtain ⟨⟨access, haccess⟩, hnew⟩ := issueTokens_ok hissue
    refine ⟨⟨fun row hrow => ?_, fun t ht => ?_⟩, minted.access, rfl, issueAccess_act haccess⟩
    · rcases hnew row hrow with hold | ⟨hrefresh, hact, -⟩
      · exact h.rows row hold
      · rw [hact]
        exact hrows hrefresh
    · rw [List.mem_append, List.mem_singleton] at ht
      rcases ht with ht | rfl
      · exact h.stands t ht
      · exact hfaithful.issued (Tokens.issueAccessToken_ok (issueAccess_ok haccess).2).2.2

lemma carrying_append {t : IssuedToken} {act : Option Value} (hG : s.Carrying admin)
    (hact : t.claims.get "act" = act) :
    (∀ u ∈ s.access ++ [t], Carries admin u.claims) ↔ Named admin act := by
  have hnew : Carries admin t.claims ↔ Named admin act := by
    rw [Carries, hact]
  constructor
  · intro h
    exact hnew.mp (h t (by simp))
  · intro h u hu
    rw [List.mem_append, List.mem_singleton] at hu
    rcases hu with hu | rfl
    · exact hG u hu
    · exact hnew.mpr h

lemma redeem_act {hash : String → RefreshTokens.Digest} {tokens : Table} {req : RedeemRequest}
    {sessions : RefreshTokens.Sessions} {draw : RefreshTokens.Draw} {now : Instant} {rotated : Issued}
    (h : (RefreshTokens.redeem hash tokens req sessions draw now).2 = .ok rotated) :
    ∃ t ∈ tokens, rotated.record.act = t.act := by
  obtain ⟨t, ht⟩ := RefreshTokens.accepts_of_redeem h
  exact ⟨t, (RefreshTokens.findByHash_spec ht.found).1,
    congrArg RefreshTokens.Grant.act (ht.grant_eq h).1⟩

lemma lasting_named : RefreshTokens.Lasting fun row => Named admin row.act := by
  intro t t' _ hgrant hnamed
  have hact : t'.act = t.act := congrArg RefreshTokens.Grant.act hgrant
  rwa [hact]

lemma Chain.issue_named (hfaithful : Faithful claimsOf r) (h : s.Sound admin claimsOf)
    (hG : s.Carrying admin) (hact : Named admin i.act)
    (hstep : s.issue r i = some s') : s'.Sound admin claimsOf ∧ s'.Carrying admin := by
  obtain ⟨hsound, t, haccess, ht⟩ := Chain.issue_spec hfaithful h (fun _ => hact) hstep
  refine ⟨hsound, ?_⟩
  rw [Chain.Carrying, haccess]
  exact (carrying_append hG ht).mpr hact

lemma Chain.refreshed_spec (hfaithful : Faithful claimsOf r) (h : s.Sound admin claimsOf)
    (hG : s.Carrying admin) (req : RedeemRequest) :
    (s.refreshed r req).Sound admin claimsOf ∧ (s.refreshed r req).Carrying admin := by
  rw [Chain.refreshed]
  generalize hredeemed : RefreshTokens.redeem r.backend.hash s.refresh req r.backend.sessions
    r.draws.refresh r.now = redeemed
  have hleft : Chain.Sound admin claimsOf ⟨s.access, redeemed.1⟩ := by
    refine ⟨?_, h.stands⟩
    rw [← hredeemed]
    exact lasting_named.redeem h.rows _ _ _ _ _
  cases hanswer : redeemed.2 with
  | error e => exact ⟨hleft, hG⟩
  | ok rotated =>
      simp only
      have hrotated : Named admin rotated.record.act := by
        obtain ⟨t, ht, hact⟩ := redeem_act (hredeemed ▸ hanswer)
        rw [hact]
        exact h.rows t ht
      cases hissue : redeemRefresh r.backend r.client r.proof req rotated with
      | error e => exact ⟨hleft, hG⟩
      | ok i =>
          rw [← (redeemRefresh_act hissue).2] at hrotated
          simp only
          cases hstep : Chain.issue ⟨s.access, redeemed.1⟩ r i with
          | none => exact ⟨hleft, hG⟩
          | some s' => exact Chain.issue_named hfaithful hleft hG hrotated hstep

/-- **An exchange.**  Its token carries the administrator exactly when there is an actor token. -/
lemma Chain.exchange_spec (hfaithful : Faithful claimsOf r) (h : s.Sound admin claimsOf)
    (hG : s.Carrying admin) (hissue : s.exchangeIssue r = some i) (hstep : s.issue r i = some s') :
    s'.Sound admin claimsOf ∧
      (s'.Carrying admin ↔ ∃ token, one r.params "actor_token" = .ok (some token)) := by
  rw [Chain.exchangeIssue] at hissue
  split at hissue
  swap
  · cases hissue
  next token htoken =>
    split at hissue
    swap
    · cases hissue
    next hmem =>
      obtain ⟨t, ht, hsame⟩ := List.any_eq_true.mp hmem
      rw [beq_iff_eq] at hsame
      obtain ⟨token', subject, actor, htoken', hverified, hrefresh, hact, hactor⟩ :=
        tokenExchange_act (toOption_eq_some.mp hissue)
      obtain rfl : token = token' := Except.ok.inj (htoken.symm.trans htoken')
      -- the subject token is one of the chain, and stands for what it was issued with
      have hsubject : Carries admin subject := by
        rw [← hfaithful.verified (Tokens.verifyAccess_eq_ok.mp hverified).1, ← hsame, h.stands t ht]
        exact hG t ht
      have hrows : i.issueRefresh = true → Named admin i.act := by
        rw [hrefresh]
        exact nofun
      obtain ⟨hsound, new, haccess, hnew⟩ := Chain.issue_spec hfaithful h hrows hstep
      refine ⟨hsound, ?_⟩
      rw [Chain.Carrying, haccess, carrying_append hG hnew, ← hactor, hact]
      cases actor with
      | none => simp [Named]
      | some a => simpa [Named] using Names.actOf hsubject

/-- **One grant** keeps what the chain rests on, and its token carries the administrator unless it is
an exchange without an actor token. -/
lemma Chain.step_spec {imp : Impersonator} {issuer : String} {g : Grant}
    (hfaithful : Faithful claimsOf g.request) (himp : g.Impersonated imp issuer)
    (h : s.Sound (actClaim imp issuer) claimsOf) (hG : s.Carrying (actClaim imp issuer))
    (hstep : s.step g = some s') :
    s'.Sound (actClaim imp issuer) claimsOf ∧
      (s'.Carrying (actClaim imp issuer) ↔ g.PresentsActor) := by
  cases g with
  | authorizationCode r record =>
      obtain ⟨i, hissue, hstep⟩ := Option.bind_eq_some_iff.mp hstep
      rw [toOption_eq_some, codeIssue] at hissue
      obtain ⟨req, -, hissue⟩ := bind_eq_ok.mp hissue
      obtain ⟨ends, hacting⟩ := himp
      have hact := redeemCode_act hissue
      rw [hacting] at hact
      obtain ⟨hsound, hcarrying⟩ := Chain.issue_named hfaithful h hG ⟨_, hact, .outermost⟩ hstep
      exact ⟨hsound, iff_of_true hcarrying trivial⟩
  | deviceCode r record approval =>
      obtain ⟨i, hissue, hstep⟩ := Option.bind_eq_some_iff.mp hstep
      obtain ⟨ends, hacting⟩ := himp
      have hact := redeemDevice_act (toOption_eq_some.mp hissue)
      rw [hacting] at hact
      obtain ⟨hsound, hcarrying⟩ := Chain.issue_named hfaithful h hG ⟨_, hact, .outermost⟩ hstep
      exact ⟨hsound, iff_of_true hcarrying trivial⟩
  | refreshToken r =>
      obtain ⟨req, -, rfl⟩ := Option.map_eq_some_iff.mp hstep
      obtain ⟨hsound, hcarrying⟩ := Chain.refreshed_spec hfaithful h hG req
      exact ⟨hsound, iff_of_true hcarrying trivial⟩
  | tokenExchange r =>
      obtain ⟨i, hissue, hstep⟩ := Option.bind_eq_some_iff.mp hstep
      exact Chain.exchange_spec hfaithful h hG hissue hstep

lemma Chain.subset_issue (h : s.issue r i = some s') : s.access ⊆ s'.access := by
  rw [Chain.issue] at h
  split at h
  · cases h
    exact List.subset_append_left _ _
  · cases h

lemma Chain.subset_step {g : Grant} (h : s.step g = some s') : s.access ⊆ s'.access := by
  cases g with
  | authorizationCode r record =>
      obtain ⟨i, -, hissue⟩ := Option.bind_eq_some_iff.mp h
      exact Chain.subset_issue hissue
  | deviceCode r record approval =>
      obtain ⟨i, -, hissue⟩ := Option.bind_eq_some_iff.mp h
      exact Chain.subset_issue hissue
  | tokenExchange r =>
      obtain ⟨i, -, hissue⟩ := Option.bind_eq_some_iff.mp h
      exact Chain.subset_issue hissue
  | refreshToken r =>
      obtain ⟨req, -, rfl⟩ := Option.map_eq_some_iff.mp h
      rw [Chain.refreshed]
      split
      · exact List.Subset.refl _
      · split
        · exact List.Subset.refl _
        · next i _ =>
            generalize hleft : (⟨s.access, _⟩ : Chain) = left
            cases hissue : left.issue r i with
            | none =>
                rw [← hleft]
                exact List.Subset.refl _
            | some s' =>
                have := Chain.subset_issue hissue
                rwa [← hleft] at this

lemma Chain.subset_run {grants : List Grant} (h : chains.run s grants = some s') :
    s.access ⊆ s'.access := by
  intro t ht
  refine Machine.run_inv (I := fun s => t ∈ s.access) (C := fun _ _ => True) ?_
    (Machine.meets_of_forall (fun _ _ => trivial) s grants) h ht
  intro s g s' hs _ hstep
  exact Chain.subset_step hstep hs

end Steps

/-! ## Whole chains -/

/-- **When impersonation is not laundered.**  In every chain of grants that starts from codes and device
approvals of sessions an administrator acts in, all access tokens carry an `act` whose nested chain
contains the administrator exactly when every token exchange of the chain presents an actor token. -/
theorem act_names_administrator_iff (imp : Impersonator) (issuer : String)
    (claimsOf : String → Members) (grants : List Grant) (s : Chain)
    (hfaithful : ∀ g ∈ grants, Faithful claimsOf g.request)
    (himp : ∀ g ∈ grants, g.Impersonated imp issuer) (hrun : chains.run .empty grants = some s) :
    (∀ t ∈ s.access, Carries (actClaim imp issuer) t.claims) ↔ ∀ g ∈ grants, g.PresentsActor := by
  have halways := Machine.always_iff_meets (I := Chain.Sound (actClaim imp issuer) claimsOf)
    (G := Chain.Carrying (actClaim imp issuer)) (C := fun _ g => g.PresentsActor)
    (A := fun g => Faithful claimsOf g.request ∧ g.Impersonated imp issuer)
    (fun hA hI hG hstep => Chain.step_spec hA.1 hA.2 hI hG hstep)
    (fun g hg => ⟨hfaithful g hg, himp g hg⟩) hrun
    ⟨fun row hrow => absurd hrow List.not_mem_nil, fun t ht => absurd ht List.not_mem_nil⟩
    (fun t ht => absurd ht List.not_mem_nil)
  rw [Machine.meets_iff_forall hrun] at halways
  rw [← halways]
  constructor
  · intro hall bs cs u hsplit hu t ht
    subst hsplit
    obtain ⟨u', hu', hrest⟩ := Machine.run_append.mp hrun
    obtain rfl : u = u' := Option.some.inj (hu.symm.trans hu')
    exact hall t (Chain.subset_run hrest ht)
  · intro hprefix
    exact hprefix grants [] s (List.append_nil _).symm hrun

/-! ## A chain that loses the administrator -/

def sampleAdmin : Impersonator := ⟨1, 2, "root"⟩

def sampleIssuer : String := "https://id.example/t/master"

def sampleClaims (sub client aud exp jti : String) (act : List (String × Value)) : Members :=
  [("iss", .string "https://id.example/t/acme"), ("sub", .string sub), ("aud", .string aud),
    ("client_id", .string client), ("azp", .string client), ("iat", .number "100"),
    ("nbf", .number "100"), ("exp", .number exp), ("jti", .string jti),
    ("tid", .string "00000000-0000-0000-0000-000000000003"), ("scope", .string ""),
    ("roles", .array []), ("groups", .array []),
    ("sid", .string "00000000-0000-0000-0000-000000000009")] ++ act

def sampleSub : String := "00000000-0000-0000-0000-000000000007"

def codeClaims : Members :=
  (sampleClaims sampleSub "app" "app" "400" "00000000-0000-0000-0000-000000000020" []).insert "auth_time"
    (.number "50") |>.insert "act" (actClaim sampleAdmin sampleIssuer)

def serviceClaims : Members := [("sub", .string "service"), ("client_id", .string "service")]

def sampleClaimsOf : String → Members
  | "from code" => codeClaims
  | "actor" => serviceClaims
  | "exchanged" => sampleClaims sampleSub "gateway" "https://api.example" "400"
      "00000000-0000-0000-0000-000000000021" []
  | "delegated" => sampleClaims sampleSub "gateway" "https://api.example" "400"
      "00000000-0000-0000-0000-000000000021" [("act", actOf serviceClaims codeClaims)]
  | _ => []

def sampleBackend (next : String) : Backend :=
  plainBackend (fun claims =>
    if sampleClaimsOf next = claims then .ok next else .error (.internal "another token")) sampleClaimsOf

def sampleRequest (next : String) (jti : Uuid) (client : Client) (params : RawParams) : Request where
  backend := sampleBackend next
  client := client
  params := params
  proof := ⟨none, none⟩
  draws := ⟨jti, 40, ⟨41, "rt_1"⟩⟩
  now := seconds 100

def sampleApp : Client where
  id := 10
  clientId := "app"
  allowedGrants := ["authorization_code"]
  allowedScopes := []
  allowedAudiences := []

def sampleGateway : Client where
  id := 11
  clientId := "gateway"
  allowedGrants := ["urn:ietf:params:oauth:grant-type:token-exchange"]
  allowedScopes := []
  allowedAudiences := ["https://api.example"]

def sampleRecord : AuthCode where
  tenantId := 3
  clientId := 10
  userId := 7
  sessionId := 9
  redirectUri := "https://app.example/cb"
  scopes := []
  audiences := []
  codeChallenge := none
  authTime := seconds 50
  amr := []
  acr := none
  orgId := none
  acting := some ⟨actClaim sampleAdmin sampleIssuer, seconds 9000⟩
  issuedAt := seconds 90

def redeemsCode : Grant :=
  .authorizationCode (sampleRequest "from code" 32 sampleApp
    [("code", "c"), ("redirect_uri", "https://app.example/cb")]) sampleRecord

def exchangesDelegated : Grant :=
  .tokenExchange (sampleRequest "delegated" 33 sampleGateway
    [("subject_token", "from code"), ("subject_token_type", ACCESS_TOKEN), ("actor_token", "actor"),
      ("actor_token_type", ACCESS_TOKEN)])

def exchangesPlainly : Grant :=
  .tokenExchange (sampleRequest "exchanged" 33 sampleGateway
    [("subject_token", "from code"), ("subject_token_type", ACCESS_TOKEN)])

lemma run_delegated : chains.run .empty [redeemsCode, exchangesDelegated] =
    some ⟨[⟨"from code", sampleClaimsOf "from code", seconds 400⟩,
      ⟨"delegated", sampleClaimsOf "delegated", seconds 400⟩], []⟩ := by
  decide +kernel

/-- With an actor token the administrator stays in the chain of `act`. -/
theorem act_names_administrator_delegated : ∃ s, chains.run .empty [redeemsCode, exchangesDelegated] = some s ∧
    s.access.length = 2 ∧ ∀ t ∈ s.access, Carries (actClaim sampleAdmin sampleIssuer) t.claims := by
  refine ⟨_, run_delegated, rfl, (act_names_administrator_iff sampleAdmin sampleIssuer sampleClaimsOf
    [redeemsCode, exchangesDelegated] _ ?_ ?_ run_delegated).mpr ?_⟩
  · rw [List.forall_mem_cons, List.forall_mem_singleton]
    exact ⟨faithful_plainBackend rfl, faithful_plainBackend rfl⟩
  · rw [List.forall_mem_cons, List.forall_mem_singleton]
    exact ⟨⟨_, rfl⟩, trivial⟩
  · rw [List.forall_mem_cons, List.forall_mem_singleton]
    exact ⟨trivial, "actor", by rfl⟩

/-- **Impersonation is laundered.**  The token out of the code names the administrator.  Exchanged
without an actor token, it gives one for the same user that has no `act` at all. -/
theorem impersonation_laundered : ∃ s, chains.run .empty [redeemsCode, exchangesPlainly] = some s ∧
    (∀ g ∈ [redeemsCode, exchangesPlainly],
      Faithful sampleClaimsOf g.request ∧ g.Impersonated sampleAdmin sampleIssuer) ∧
    ∃ t ∈ s.access, t.claims.get "sub" = some (.string sampleSub) ∧ t.claims.get "act" = none ∧
      ¬ Carries (actClaim sampleAdmin sampleIssuer) t.claims := by
  refine ⟨⟨[⟨"from code", sampleClaimsOf "from code", seconds 400⟩,
    ⟨"exchanged", sampleClaimsOf "exchanged", seconds 400⟩], []⟩, by decide +kernel, ?_,
    ⟨"exchanged", sampleClaimsOf "exchanged", seconds 400⟩, by simp, by decide +kernel,
    by decide +kernel, ?_⟩
  · rw [List.forall_mem_cons, List.forall_mem_singleton]
    exact ⟨⟨faithful_plainBackend rfl, _, rfl⟩, faithful_plainBackend rfl, trivial⟩
  · rintro ⟨v, hv, -⟩
    cases hv

end Ridm.TokenEndpoint
