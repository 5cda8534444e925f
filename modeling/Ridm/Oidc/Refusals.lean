import Ridm.Oidc.Grants

/-!
# Refused refreshes

`refresh_token` checks some of a request before the refresh token is spent (what it names, what it is
bound to, whether resources and scopes are within the grant) and the rest after it: the user, the
resource servers and their signing algorithms.  `redeem` has committed by then.  A client whose request
is refused late never sees the token that followed, and when it presents the one it has again, that is
reuse, and the family is revoked.

`refused_refresh_usable_iff` is the exact line between the two.
-/

namespace Ridm.TokenEndpoint

open RefreshTokens (Accepts RedeemRequest RefreshToken Table checkRequest exchange findByHash
  markConsumed newRow redeem_of_live sessionEnded successorRequest violatesUnique)

/-- What `redeem` says of a session that is over. -/
def sessionOver : OAuthError := ⟨.invalidGrant, "the session this token was issued in has ended"⟩

/-- The request keeps its refresh token, or is refused before that is spent: the client is one that
does not rotate, or a parameter is missing or malformed, or `redeem` refuses (the token has expired, is
bound to another key or certificate, or lacks a resource or a scope), or the successor cannot be
stored. -/
def Unspent (r : Request) (tokens : Table) (row : RefreshToken) : Prop :=
  r.client.isFapi2 = true ∨ ∀ req, refreshGrant r.backend r.client r.params r.proof = .ok req →
    checkRequest req row r.now ≠ none ∨
      violatesUnique (markConsumed req.tenantId row.id r.now tokens)
        (newRow r.backend.hash req.tenantId row.familyId (successorRequest req.clientId row)
          row.expiresAt r.draws.refresh r.now) = true

section Redeeming

variable {tokens : Table} {req : RedeemRequest} {row : RefreshToken}

lemma findByHash_spent {tenantId : Uuid} {digest : RefreshTokens.Digest} (now : Instant)
    (new : RefreshToken) (hfound : findByHash tokens tenantId digest = some row) :
    ∃ t, findByHash (markConsumed tenantId row.id now tokens ++ [new]) tenantId digest = some t ∧
      t.isLive = false := by
  have htenant := (RefreshTokens.findByHash_spec hfound).2
  refine ⟨RefreshTokens.consumeIf tenantId row.id now row, ?_, ?_⟩
  · have hkeys : ∀ t : RefreshToken,
        ((RefreshTokens.consumeIf tenantId row.id now t).tenantId == tenantId &&
          (RefreshTokens.consumeIf tenantId row.id now t).tokenHash == digest) =
        (t.tenantId == tenantId && t.tokenHash == digest) := by
      intro t
      rw [RefreshTokens.consumeIf]
      split_ifs <;> rfl
    rw [findByHash] at hfound ⊢
    rw [markConsumed, List.find?_append, List.find?_map, Function.comp_def]
    simp only [hkeys, hfound, Option.map_some, Option.some_or]
  · simp [RefreshTokens.consumeIf, htenant, RefreshToken.isLive]

lemma refreshGrant_ok {r : Request} {p : String} (hp : one r.params "refresh_token" = .ok (some p))
    (h : refreshGrant r.backend r.client r.params r.proof = .ok req) :
    req.tenantId = r.backend.tenant.id ∧ req.clientId = r.client.clientId ∧ req.presented = p ∧
      req.rotate = !r.client.isFapi2 := by
  simp only [refreshGrant, bind_eq_ok, hp, orError_eq_ok] at h
  obtain ⟨_, ⟨⟩, _, ⟨⟩, extra, _, scope, _, h⟩ := h
  cases h
  exact ⟨rfl, rfl, rfl, rfl⟩

lemma accepts_of_refreshToken {r : Request} {a : Refreshed} (h : (refreshToken r tokens).2 = .ok a) :
    ∃ req t, refreshGrant r.backend r.client r.params r.proof = .ok req ∧
      Accepts r.backend.hash tokens req r.backend.sessions r.now t := by
  rw [refreshToken] at h
  split at h
  · cases h
  next req hreq =>
    obtain ⟨rotated, hrotated, -⟩ := bind_eq_ok.mp h
    obtain ⟨t, ht⟩ := RefreshTokens.accepts_of_redeem hrotated
    exact ⟨req, t, hreq, ht⟩

/-- **What a refused refresh leaves** of a live token: the table as it was, or the token consumed and
followed by a successor that nobody gets to see. -/
lemma refreshToken_left {r : Request} {p : String} {e : OAuthError}
    (hp : one r.params "refresh_token" = .ok (some p))
    (hform : RefreshTokens.PREFIX.toList.isPrefixOf p.toList = true ∧ p.utf8ByteSize ≤ 256)
    (hfound : findByHash tokens r.backend.tenant.id (r.backend.hash p) = some row)
    (howner : row.clientId = r.client.clientId) (hlive : row.isLive = true)
    (hrefused : (refreshToken r tokens).2 = .error e) (hended : e ≠ sessionOver) :
    (Unspent r tokens row ∧ (refreshToken r tokens).1 = tokens) ∨
      (¬ Unspent r tokens row ∧ ∃ new, (refreshToken r tokens).1 =
        markConsumed r.backend.tenant.id row.id r.now tokens ++ [new]) := by
  rw [Unspent]
  cases hreq : refreshGrant r.backend r.client r.params r.proof with
  | error e' => exact .inl ⟨.inr nofun, by rw [refreshToken, hreq]⟩
  | ok req =>
      obtain ⟨htenant, hclient, hpresented, hrotate⟩ := refreshGrant_ok hp hreq
      have hredeem : RefreshTokens.redeem r.backend.hash tokens req r.backend.sessions r.draws.refresh
          r.now = _ :=
        redeem_of_live (hpresented ▸ hform) (by rw [htenant, hpresented]; exact hfound)
          (howner.trans hclient.symm) hlive
      simp only [refreshToken, hreq, hredeem] at hrefused ⊢
      cases hcheck : checkRequest req row r.now with
      | some e' =>
          refine .inl ⟨.inr fun req' hreq' => .inl ?_, rfl⟩
          obtain rfl := Except.ok.inj hreq'
          rw [hcheck]
          exact nofun
      | none =>
          cases hsession : sessionEnded r.backend.sessions row with
          | true =>
              simp only [hcheck, hsession, if_true] at hrefused
              exact absurd (Except.error.inj hrefused).symm hended
          | false =>
              simp only [hcheck, hsession, Bool.false_eq_true, if_false, exchange, hrotate,
                RefreshTokens.insertIn] at hrefused ⊢
              cases hfapi : r.client.isFapi2 with
              | true => exact .inl ⟨.inl rfl, rfl⟩
              | false =>
                  simp only [Bool.not_false, Bool.not_true, Bool.false_eq_true, if_false]
                  split_ifs with hviolates
                  · refine .inl ⟨.inr fun req' hreq' => .inr ?_, rfl⟩
                    obtain rfl := Except.ok.inj hreq'
                    exact hviolates
                  · refine .inr ⟨?_, _, by rw [htenant]⟩
                    rintro (hfapi' | hall)
                    · cases hfapi'
                    · rcases hall req rfl with hcheck' | hviolates'
                      · exact hcheck' hcheck
                      · exact hviolates hviolates'

end Redeeming

/-- **When a refused refresh leaves the token usable.**  The owner of a refresh token makes a request
that is refused, for any reason other than an ended session, and another one with the same token that
would have been accepted in its place.  The second is accepted after the first exactly when the first
did not spend the token. -/
theorem refused_refresh_usable_iff (tokens : Table) (row : RefreshToken) (p : String) (r₁ r₂ : Request)
    (hp₁ : one r₁.params "refresh_token" = .ok (some p))
    (hp₂ : one r₂.params "refresh_token" = .ok (some p))
    (htenant : r₂.backend.tenant.id = r₁.backend.tenant.id) (hhash : r₂.backend.hash = r₁.backend.hash)
    (hfound : findByHash tokens r₁.backend.tenant.id (r₁.backend.hash p) = some row)
    (howner : row.clientId = r₁.client.clientId) (e : OAuthError)
    (hrefused : (refreshToken r₁ tokens).2 = .error e) (hended : e ≠ sessionOver)
    (hgood : ∃ a, (refreshToken r₂ tokens).2 = .ok a) :
    (∃ a, (refreshToken r₂ (refreshToken r₁ tokens).1).2 = .ok a) ↔ Unspent r₁ tokens row := by
  -- the second request tells that the token is well formed and live
  obtain ⟨req₂, t, hreq₂, haccepts⟩ := accepts_of_refreshToken hgood.choose_spec
  obtain ⟨htenant₂, hclient₂, hpresented₂, -⟩ := refreshGrant_ok hp₂ hreq₂
  have hsame : row = t := by
    have hfound₂ := haccepts.found
    rw [htenant₂, hpresented₂, htenant, hhash, hfound, Option.some.injEq] at hfound₂
    exact hfound₂
  subst hsame
  have hform := haccepts.form
  rw [hpresented₂] at hform
  rcases refreshToken_left hp₁ hform hfound howner haccepts.live hrefused hended with
    ⟨hunspent, hleft⟩ | ⟨hspent, new, hleft⟩
  · rw [hleft]
    exact iff_of_true hgood hunspent
  · refine iff_of_false ?_ hspent
    rintro ⟨a, ha⟩
    obtain ⟨req, t, hreq, hagain⟩ := accepts_of_refreshToken ha
    obtain rfl : req₂ = req := Except.ok.inj (hreq₂.symm.trans hreq)
    obtain ⟨t', hfound', hdead⟩ := findByHash_spent r₁.now new hfound
    have hfoundAgain := hagain.found
    rw [hleft, htenant₂, hpresented₂, htenant, hhash, hfound', Option.some.injEq] at hfoundAgain
    have hlive := hagain.live
    rw [← hfoundAgain, hdead] at hlive
    cases hlive

/-! ## A grant for two APIs, one of them gone -/

def twoApis : RefreshToken where
  id := 41
  tenantId := 3
  familyId := 40
  clientId := "app"
  userId := some 7
  sessionId := none
  tokenHash := RefreshTokens.sha256 "rt_first"
  scopes := ["orders"]
  audiences := ["https://api.example", "https://old.example"]
  authTime := none
  amr := []
  acr := none
  orgId := none
  act := none
  expiresAt := seconds 9000
  dpopJkt := none
  mtlsX5t := none
  consumedAt := none
  revokedAt := none
  createdAt := seconds 50

def refreshesWith (params : RawParams) : Request where
  backend :=
    { plainBackend (fun _ => .ok "token") fun _ => [] with
      hash := RefreshTokens.sha256
      resourceServer := fun name => if name = "https://old.example" then none
        else some ⟨5, name, none, none, true, false⟩ }
  client :=
    { id := 10, clientId := "app", allowedGrants := ["refresh_token"], allowedScopes := ["orders"],
      allowedAudiences := [] }
  params := ("refresh_token", "rt_first") :: params
  proof := ⟨none, none⟩
  draws := ⟨32, 40, ⟨42, "rt_second"⟩⟩
  now := seconds 100

def refreshesApi : Request := refreshesWith [("resource", "https://api.example")]

lemma refreshesApi_ok : ∃ a, (refreshToken refreshesApi [twoApis]).2 = .ok a := ⟨_, rfl⟩

/-- A scope that was not granted is refused before the token is spent. -/
theorem refused_refresh_usable_scope :
    (refreshToken (refreshesWith [("scope", "admin")]) [twoApis]).2 =
        .error ⟨.invalidScope, "scope `admin` was not granted"⟩ ∧
      ∃ a, (refreshToken refreshesApi
        (refreshToken (refreshesWith [("scope", "admin")]) [twoApis]).1).2 = .ok a := by
  refine ⟨rfl, (refused_refresh_usable_iff [twoApis] twoApis "rt_first" (refreshesWith [("scope", "admin")])
    refreshesApi rfl rfl rfl rfl rfl rfl _ rfl (by decide) refreshesApi_ok).mpr ?_⟩
  refine .inr fun req hreq => .inl ?_
  obtain rfl := Except.ok.inj hreq
  decide

/-- **A refused refresh takes the token away.**  The request names the API that is gone, and is refused
for that; the one that would have been good is now taken for reuse. -/
theorem refused_refresh_spends :
    (refreshToken (refreshesWith [("resource", "https://old.example")]) [twoApis]).2 =
        .error ⟨.invalidTarget, "unknown resource `https://old.example`"⟩ ∧
      (∃ a, (refreshToken refreshesApi [twoApis]).2 = .ok a) ∧
      (refreshToken refreshesApi
        (refreshToken (refreshesWith [("resource", "https://old.example")]) [twoApis]).1).2 =
          .error ⟨.invalidGrant, "refresh token reuse detected"⟩ :=
  ⟨rfl, refreshesApi_ok, rfl⟩

end Ridm.TokenEndpoint
