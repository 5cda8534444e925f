import Ridm.Oidc.Grants

/-!
# Resources named at authorization bound the grant

An authorization code, a device code and a backchannel request record the audiences that were asked
for.  Each of the three grants combines them with the `resource` values of the token request in its
own code: `authorization_code` refuses a resource outside of the list, `backchannel` reads none, and
`device_code` takes whatever is there in place of the list.

What the first token is for is stored with the refresh token, and `redeem` lets a refresh only narrow
it; so it bounds all later tokens, too.  `resources_bound_iff` says when it is within the list, and
`device_escapes_resources` is a device that is not.
-/

namespace Ridm.TokenEndpoint

open DeviceCodes (Approval DeviceRecord)
open RefreshTokens (Op RefreshToken Table inFamily)
open Tokens (IssuedToken)

/-! ## Redeeming an authorization -/

/-- What a token request redeems. -/
inductive Authorization
  | code (req : CodeRequest) (record : AuthCode)
  | device (record : DeviceRecord) (approval : Approval)
  | backchannel (record : Ciba.CibaRecord) (approval : Ciba.Approval)

def Authorization.audiences : Authorization → List String
  | .code _ record => record.audiences
  | .device record _ => record.audiences
  | .backchannel record _ => record.audiences

/-- The grant of each kind, up to `issue_tokens`. -/
def Authorization.redeem (r : Request) : Authorization → Except OAuthError Issue
  | .code req record => redeemCode r.backend r.client r.params r.proof req record r.now
  | .device record approval => redeemDevice r.backend r.client r.params r.proof record approval
  | .backchannel record approval => redeemBackchannel r.backend r.client r.proof record approval

/-- The token request of a device names no resource outside of what was authorized. -/
def Authorization.Within (r : Request) : Authorization → Prop
  | .device record _ => ∀ extra, parseResources r.backend r.params = .ok extra →
      ∀ x ∈ extra, x ∈ record.audiences
  | _ => True

/-! ## The tokens of a grant -/

/-- An access token, with what it was issued for. -/
structure Access where
  issue : Issue
  token : IssuedToken

/-- The audiences of an access token that are resource servers. -/
def Access.resources (a : Access) : List String :=
  (audiencesOf a.token.claims).filter a.issue.audience.audiences.contains

/-- The refresh tokens, and the access tokens of one grant. -/
structure Served where
  tokens : Table
  access : List Access

/-- The first tokens of a grant. -/
def Authorization.start (a : Authorization) (r : Request) (tokens : Table) :
    Except OAuthError Served := do
  let i ← a.redeem r
  let issued ← issueTokens r.backend i r.draws r.now tokens
  .ok ⟨issued.1, [⟨i, issued.2.access⟩]⟩

/-- What happens after that: a refresh, or anything else that touches refresh tokens. -/
inductive Event
  | refresh (r : Request)
  | other (hash : String → RefreshTokens.Digest) (op : Op)

/-- A refresh is one of this grant when the token it redeems is of its family. -/
def Served.step (tenantId familyId : Uuid) (s : Served) : Event → Served
  | .refresh r =>
      let answer := refreshToken r s.tokens
      ⟨answer.1, match answer.2 with
        | .ok a => if inFamily tenantId familyId a.rotated.record then
            s.access ++ [⟨a.issue, a.access⟩] else s.access
        | .error _ => s.access⟩
  | .other hash op => { s with tokens := RefreshTokens.apply hash s.tokens op }

/-- What is served to one grant, whoever else is served. -/
def serving (tenantId familyId : Uuid) : Machine Served Event where
  step s e := some (s.step tenantId familyId e)

/-- Look-ups are by key, and no other grant draws this family. -/
def Event.Regular (tenantId familyId : Uuid) : Event → Prop
  | .refresh r => r.backend.Keyed
  | .other _ (.issue tenantId' _ familyId' _ _) => ¬ (tenantId' = tenantId ∧ familyId' = familyId)
  | .other _ _ => True

/-! ## What the first token is for -/

section Start

variable {B : Backend} {client : Client} {params : RawParams} {r : Request} {a : Authorization}
  {i : Issue}

lemma resolveAudience_of_ne_nil (hB : B.Keyed) {requested : List String} {roleIds : List Uuid}
    {audience : Audience} (hne : requested ≠ [])
    (h : resolveAudience B client requested roleIds = .ok audience) :
    audience.audiences = requested := by
  rw [resolveAudience_ok hB h, if_neg]
  rwa [List.isEmpty_iff]

lemma checkResources_eq_ok {granted extra : List String} {u : Unit} (hne : granted ≠ []) :
    checkResources granted extra = .ok u ↔ ∀ x ∈ extra, x ∈ granted := by
  have hnone : (extra.find? fun r => !granted.isEmpty && !granted.contains r) = none ↔
      ∀ x ∈ extra, x ∈ granted := by
    simp [List.find?_eq_none, hne]
  rw [checkResources, ← hnone]
  cases extra.find? fun r => !granted.isEmpty && !granted.contains r <;> simp

lemma ne_nil_of_extra {recorded : List String} (hne : recorded ≠ []) (extra : List String) :
    (if extra.isEmpty then recorded else extra) ≠ [] := by
  cases extra with
  | nil => exact hne
  | cons x extra => exact List.cons_ne_nil x extra

/-- **What a redemption is for**: resources, and within those that were recorded exactly when a device
asks for no others. -/
lemma Authorization.redeem_audiences (hB : r.backend.Keyed) (hne : a.audiences ≠ [])
    (h : a.redeem r = .ok i) : i.audience.audiences ≠ [] ∧
      ((∀ x ∈ i.audience.audiences, x ∈ a.audiences) ↔ a.Within r) := by
  cases a with
  | code req record =>
      simp only [redeem, redeemCode, bind_eq_ok] at h
      obtain ⟨_, _, _, _, _, _, _, _, _, _, subject, _, extra, _, _, hcheck, audience, haudience, h⟩ := h
      cases h
      have hwanted := ne_nil_of_extra hne extra
      have haud := resolveAudience_of_ne_nil hB hwanted haudience
      refine ⟨haud ▸ hwanted, iff_of_true ?_ trivial⟩
      rw [haud]
      split_ifs
      · exact fun x hx => hx
      · exact (checkResources_eq_ok hne).mp hcheck
  | device record approval =>
      simp only [redeem, redeemDevice, bind_eq_ok] at h
      obtain ⟨subject, _, extra, hextra, audience, haudience, h⟩ := h
      cases h
      have hwanted := ne_nil_of_extra hne extra
      have haud := resolveAudience_of_ne_nil hB hwanted haudience
      refine ⟨haud ▸ hwanted, ?_⟩
      rw [haud, Within]
      cases extra with
      | nil => simp [hextra, audiences]
      | cons x extra => simp [hextra, audiences]
  | backchannel record approval =>
      simp only [redeem, redeemBackchannel, bind_eq_ok] at h
      obtain ⟨subject, _, audience, haudience, h⟩ := h
      cases h
      have haud := resolveAudience_of_ne_nil hB hne haudience
      exact ⟨haud ▸ hne, iff_of_true (haud ▸ fun x hx => hx) trivial⟩

end Start

/-! ## What later tokens are for -/

/-- The token was issued for the audiences of its issue. -/
def Access.Sound (a : Access) : Prop :=
  ∃ S req jti, Tokens.Tells S req jti a.token.expiresAt a.token.claims ∧
    req.audiences = a.issue.audience.audiences

lemma Access.Sound.resources {a : Access} (h : a.Sound) (x : String) :
    x ∈ a.resources ↔ x ∈ a.issue.audience.audiences := by
  obtain ⟨S, req, jti, htells, haud⟩ := h
  rw [Access.resources, List.mem_filter, List.contains_iff_mem, ← haud]
  exact ⟨And.right, fun hx => ⟨resource_mem_audiencesOf htells hx, hx⟩⟩

lemma sound_of_issueAccess {B : Backend} {i : Issue} {jti : Uuid} {now : Instant}
    {issued : Issue × IssuedToken} (h : issueAccess B i jti now = .ok issued) :
    Access.Sound ⟨i, issued.2⟩ ∧ issued.1.audience = i.audience := by
  obtain ⟨hissue, htoken⟩ := issueAccess_ok h
  have haudience : issued.1.audience = i.audience := by rw [hissue]
  refine ⟨⟨B.service, accessRequest B issued.1, jti, ?_, congrArg Audience.audiences haudience⟩,
    haudience⟩
  change Tokens.Tells _ _ _ issued.2.expiresAt issued.2.claims
  rw [(Tokens.issueAccessToken_ok htoken).1]
  exact Tokens.tells_accessClaims _ _ _ _ _

/-- All that is served to the grant is for `L` or less. -/
structure Served.Bounded (tenantId familyId : Uuid) (L : List String) (s : Served) : Prop where
  rows : ∀ row ∈ s.tokens, inFamily tenantId familyId row = true → row.audiences = L
  sound : ∀ a ∈ s.access, a.Sound
  within : ∀ a ∈ s.access, ∀ x ∈ a.issue.audience.audiences, x ∈ L

section Steps

variable {tenantId familyId : Uuid} {L : List String} {s s' : Served} {r : Request}

lemma lasting_audiences : RefreshTokens.Lasting fun row =>
    inFamily tenantId familyId row = true → row.audiences = L := by
  intro t t' hfamily hgrant h hin
  have haud : t'.audiences = t.audiences := congrArg RefreshTokens.Grant.audiences hgrant
  rw [RefreshTokens.inFamily_iff, hfamily.1, hfamily.2, ← RefreshTokens.inFamily_iff] at hin
  rw [haud]
  exact h hin

lemma checkRequest_resources {req : RefreshTokens.RedeemRequest} {t : RefreshToken} {now : Instant}
    (h : RefreshTokens.checkRequest req t now = none) : ∀ x ∈ req.resources, x ∈ t.audiences := by
  rw [RefreshTokens.checkRequest] at h
  split_ifs at h
  split at h
  · cases h
  · next hfind =>
      rw [List.find?_eq_none] at hfind
      intro x hx
      have hmem := hfind x hx
      simpa using hmem

/-- **A refresh is for no more than its family.** -/
lemma refreshToken_audiences (hB : r.backend.Keyed) (hL : L ≠ []) {tokens : Table} {a : Refreshed}
    (h : ∀ row ∈ tokens, inFamily tenantId familyId row = true → row.audiences = L)
    (hanswer : (refreshToken r tokens).2 = .ok a)
    (hfamily : inFamily tenantId familyId a.rotated.record = true) :
    Access.Sound ⟨a.issue, a.access⟩ ∧ ∀ x ∈ a.issue.audience.audiences, x ∈ L := by
  rw [refreshToken] at hanswer
  split at hanswer
  · cases hanswer
  next req hreq =>
    obtain ⟨rotated, hrotated, hissue⟩ := bind_eq_ok.mp hanswer
    obtain ⟨t, haccepts⟩ := RefreshTokens.accepts_of_redeem hrotated
    obtain ⟨hgrant, hsame⟩ := haccepts.grant_eq hrotated
    simp only [refreshIssue, redeemRefresh, bind_eq_ok] at hissue
    obtain ⟨i, ⟨subject, _, audience, haudience, hi⟩, issued, hissued, hanswer⟩ := hissue
    cases hi
    cases hanswer
    obtain ⟨⟨S, q, jti, htells, hq⟩, haud⟩ := sound_of_issueAccess hissued
    refine ⟨⟨S, q, jti, htells, hq.trans (congrArg Audience.audiences haud.symm)⟩, ?_⟩
    -- the row that was presented is one of the family
    have hrow : t.audiences = L := by
      refine h t (RefreshTokens.findByHash_spec haccepts.found).1 ?_
      rwa [RefreshTokens.inFamily_iff, hsame.1, hsame.2, ← RefreshTokens.inFamily_iff] at hfamily
    have hrecord : rotated.record.audiences = L :=
      (congrArg RefreshTokens.Grant.audiences hgrant).trans hrow
    rw [hrecord] at haudience
    change ∀ x ∈ issued.1.audience.audiences, x ∈ L
    rw [haud]
    change ∀ x ∈ audience.audiences, x ∈ L
    rw [resolveAudience_of_ne_nil hB (ne_nil_of_extra hL req.resources) haudience]
    split_ifs
    · exact fun x hx => hx
    · exact fun x hx => hrow ▸ checkRequest_resources haccepts.check x hx

lemma refreshToken_rows {P : RefreshToken → Prop} (hP : RefreshTokens.Lasting P) {tokens : Table}
    (h : ∀ t ∈ tokens, P t) : ∀ t ∈ (refreshToken r tokens).1, P t := by
  rw [refreshToken]
  split
  · exact h
  · exact hP.redeem h _ _ _ _ _

/-- **One event** adds no token of this grant that is for more. -/
lemma Served.Bounded.step (hL : L ≠ []) {e : Event} (he : e.Regular tenantId familyId)
    (h : s.Bounded tenantId familyId L) : (s.step tenantId familyId e).Bounded tenantId familyId L := by
  cases e with
  | refresh r =>
      have hrows := refreshToken_rows (r := r) lasting_audiences h.rows
      rw [Served.step]
      cases hanswer : (refreshToken r s.tokens).2 with
      | error e => exact ⟨hrows, h.sound, h.within⟩
      | ok a =>
          simp only
          split_ifs with hfamily
          · obtain ⟨hsound, hwithin⟩ := refreshToken_audiences he hL h.rows hanswer hfamily
            refine ⟨hrows, fun b hb => ?_, fun b hb => ?_⟩ <;>
              rw [List.mem_append, List.mem_singleton] at hb
            · rcases hb with hb | rfl
              · exact h.sound b hb
              · exact hsound
            · rcases hb with hb | rfl
              · exact h.within b hb
              · exact hwithin
          · exact ⟨hrows, h.sound, h.within⟩
  | other hash op =>
      refine ⟨lasting_audiences.apply h.rows ?_, h.sound, h.within⟩
      rintro tenantId' req familyId' draw now rfl hin
      exact absurd (RefreshTokens.inFamily_iff.mp hin) he

lemma Served.access_subset_step (e : Event) : s.access ⊆ (s.step tenantId familyId e).access := by
  cases e with
  | refresh r =>
      rw [Served.step]
      simp only
      split
      · split_ifs
        · exact List.subset_append_left _ _
        · exact List.Subset.refl _
      · exact List.Subset.refl _
  | other hash op => exact List.Subset.refl _

end Steps

/-- **Resources named at authorization bound the grant**, exactly when a device asks for no others.
For every stored authorization with a non-empty list of audiences, its redemption and whatever happens
then: all access tokens of the grant are for resources of that list if and only if the token request of
a device names none outside of it. -/
theorem resources_bound_iff (a : Authorization) (hne : a.audiences ≠ []) (r : Request)
    (hkeyed : r.backend.Keyed) (tokens : Table)
    (hfresh : ∀ t ∈ tokens, inFamily r.backend.tenant.id r.draws.familyId t = false)
    (s₀ s : Served) (hstart : a.start r tokens = .ok s₀) (events : List Event)
    (hregular : ∀ e ∈ events, e.Regular r.backend.tenant.id r.draws.familyId)
    (hrun : (serving r.backend.tenant.id r.draws.familyId).run s₀ events = some s) :
    (∀ access ∈ s.access, ∀ x ∈ access.resources, x ∈ a.audiences) ↔ a.Within r := by
  simp only [Authorization.start, bind_eq_ok] at hstart
  obtain ⟨i, hi, issued, hissued, hstart⟩ := hstart
  cases hstart
  obtain ⟨hL, hwithin⟩ := Authorization.redeem_audiences hkeyed hne hi
  obtain ⟨⟨granted, haccess⟩, hrows⟩ := issueTokens_ok hissued
  have hsound := (sound_of_issueAccess haccess).1
  have hinv : s.Bounded r.backend.tenant.id r.draws.familyId i.audience.audiences ∧
      ⟨i, issued.2.access⟩ ∈ s.access := by
    refine Machine.run_inv (C := fun _ (e : Event) => e.Regular r.backend.tenant.id r.draws.familyId)
      (I := fun u : Served => u.Bounded r.backend.tenant.id r.draws.familyId i.audience.audiences ∧
        ⟨i, issued.2.access⟩ ∈ u.access) ?_
      ((Machine.meets_iff_forall hrun).mpr hregular) hrun ⟨⟨?_, ?_, ?_⟩, List.mem_singleton_self _⟩
    · rintro u e u' ⟨hu, hmem⟩ he hstep
      cases hstep
      exact ⟨hu.step hL he, Served.access_subset_step e hmem⟩
    · intro row hrow hin
      rcases hrows row hrow with hold | ⟨-, -, haud⟩
      · rw [hfresh row hold] at hin
        cases hin
      · exact haud
    · rw [List.forall_mem_singleton]
      exact hsound
    · rw [List.forall_mem_singleton]
      exact fun x hx => hx
  obtain ⟨hbounded, hfirst⟩ := hinv
  rw [← hwithin]
  constructor
  · intro hall x hx
    exact hall _ hfirst x ((hsound.resources x).mpr hx)
  · intro hfits access hmem x hx
    exact hfits x (hbounded.within access hmem x (((hbounded.sound access hmem).resources x).mp hx))

/-! ## A television -/

def television : Client where
  id := 10
  clientId := "tv"
  isFapi2 := true
  allowedGrants := ["refresh_token"]
  allowedScopes := []
  allowedAudiences := []

def televisionApproved : Authorization :=
  .device
    { id := 20, tenantId := 3, clientId := 10, clientPublicId := "tv", scopes := [],
      audiences := ["https://films.example", "https://music.example"], userCode := "BCDF-GHJK",
      intervalSecs := 5, issuedAt := seconds 90, expiresAt := seconds 690, status := .pending,
      lastPollAt := none }
    { userId := 7, sessionId := 9, authTime := seconds 50, amr := ["pwd"], acr := none, orgId := none,
      acting := none, scopes := [] }

def televisionAsks (params : RawParams) : Request where
  backend := plainBackend (fun _ => .ok "token") fun _ => []
  client := television
  params := params
  proof := ⟨none, none⟩
  draws := ⟨32, 40, ⟨41, "rt_1"⟩⟩
  now := seconds 100

/-- Two APIs are approved and the request names one; so does a refresh of it. -/
theorem resources_bound_television : ∃ s₀ s,
    televisionApproved.start (televisionAsks [("resource", "https://films.example")]) [] = .ok s₀ ∧
      (serving 3 40).run s₀ [.refresh (televisionAsks [("refresh_token", "rt_1")])] = some s ∧
      s.access.length = 2 ∧ ∀ access ∈ s.access, ∀ x ∈ access.resources,
        x ∈ ["https://films.example", "https://music.example"] := by
  refine ⟨_, _, rfl, rfl, by decide +kernel, ?_⟩
  refine (resources_bound_iff televisionApproved (List.cons_ne_nil _ _)
    (televisionAsks [("resource", "https://films.example")]) (keyed_plainBackend _ _) []
    (fun t ht => absurd ht List.not_mem_nil) _ _ rfl
    [.refresh (televisionAsks [("refresh_token", "rt_1")])] ?_ rfl).mpr ?_
  · rw [List.forall_mem_singleton]
    exact keyed_plainBackend _ _
  · rintro _ ⟨⟩
    decide

/-- **A device escapes.**  Two APIs were approved, the token request names a third, and the access token
is for that one. -/
theorem device_escapes_resources : ∃ s₀,
    televisionApproved.start (televisionAsks [("resource", "https://payroll.example")]) [] = .ok s₀ ∧
      televisionApproved.audiences = ["https://films.example", "https://music.example"] ∧
      ∃ access ∈ s₀.access, access.resources = ["https://payroll.example"] := by
  refine ⟨_, rfl, rfl, _, List.mem_singleton_self _, by decide +kernel⟩

end Ridm.TokenEndpoint
