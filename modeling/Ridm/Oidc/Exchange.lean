import Ridm.Oidc.Grants

/-!
# What a token exchange keeps

`token_exchange` of `api/src/oidc/token.rs` trades an access token for another.  The new token reads
everything off the claims of the old one: its scopes, its binding, when it ends, its session and
organization.  `exchanges_narrow` is what holds along every chain of exchanges.

Whose token it is, is read off the claims, too: from `sub` when that is a UUID, else through the
session of `sid`.  A pairwise subject is no UUID, and without a live session there is then nobody,
which is also what a token of a client looks like.  `exchange_keeps_subject_iff` says exactly when an
exchange acts for the user the subject token was issued to, and `exchange_loses_user` is one that
does not.
-/

namespace Ridm.TokenEndpoint

open RefreshTokens (SenderProof)
open Tokens (AccessTokenRequest IssuedToken TokenService confirmation intJson issueAccessToken
  uuidJson uuidText)
open Users (User)

/-! ## Reading a token -/

def scopesOf (claims : Members) : List String :=
  parseScopeParam (((index claims "scope").asStr).getD "")

def boundKey (claims : Members) : Option String :=
  ((index claims "cnf").member "jkt").bind Value.asStr

def boundCertificate (claims : Members) : Option String :=
  ((index claims "cnf").member "x5t#S256").bind Value.asStr

/-- A `DateTime`: an instant in the years `chrono` knows. -/
def IsDateTime (t : Instant) : Prop := fromTimestamp (unixTime t) = some (seconds (unixTime t))

lemma isDateTime_iff {t : Instant} :
    IsDateTime t ↔ -8334601228800 ≤ unixTime t ∧ unixTime t ≤ 8210266876799 := by
  rw [IsDateTime, fromTimestamp]
  split_ifs with h
  · exact iff_of_true rfl h
  · exact iff_of_false nofun h

section Reading

variable {S : TokenService} {req : AccessTokenRequest} {jti : Uuid} {now exp : Instant}

lemma uuidClaim_of_get {claims : Members} {name : String} {id : Option Uuid}
    (h : claims.get name = id.map uuidJson) :
    uuidClaim claims name = id.map fun u => (BitVec.ofNat 128 u).toNat := by
  cases id with
  | none => simp [uuidClaim, index, h, Value.asStr]
  | some u => simp [uuidClaim, index, h, uuidJson, uuidText, Value.asStr, Uuid128.parseStr_text]

lemma uuidJson_uuidClaim {claims : Members} {name : String} {id : Option Uuid}
    (h : claims.get name = id.map uuidJson) : (uuidClaim claims name).map uuidJson = claims.get name := by
  rw [uuidClaim_of_get h, h, Option.map_map]
  refine congrArg (Option.map · id) (funext fun u => ?_)
  simp only [Function.comp_apply, uuidJson, uuidText, BitVec.ofNat_toNat, BitVec.setWidth_eq]

lemma boundKey_of_cnf {claims : Members} (h : claims.get "cnf" = confirmation req) :
    boundKey claims = req.cnfJkt := by
  rw [boundKey, index, h, confirmation]
  cases req.cnfJkt <;> cases req.cnfX5t <;>
    simp [Members.insertSome, Members.insert, Value.member, Members.get, Value.asStr]

lemma boundCertificate_of_cnf {claims : Members} (h : claims.get "cnf" = confirmation req) :
    boundCertificate claims = req.cnfX5t := by
  rw [boundCertificate, index, h, confirmation]
  cases req.cnfJkt <;> cases req.cnfX5t <;>
    simp [Members.insertSome, Members.insert, Value.member, Members.get, Value.asStr]

end Reading

/-! ## What an accepted exchange comes to -/

/-- What the issue of an exchange takes from the claims of the subject token. -/
structure Exchanged (r : Request) (subject : Members) (i : Issue) : Prop where
  client : i.client = r.client
  proof : i.proof = r.proof
  key : ∀ k, boundKey subject = some k → r.proof.jkt = some k
  certificate : ∀ c, boundCertificate subject = some c →
    r.proof.x5t = some c ∧ r.client.tlsClientCertificateBoundAccessTokens = true
  scopes : ∀ s ∈ i.scopes, s ∈ scopesOf subject ∧ s ∈ r.client.allowedScopes
  user : loadSubjectOf r.backend (subjectUserId r.backend subject) (uuidClaim subject "org_id") =
    .ok i.subject
  audience : ∃ wanted roleIds, (∀ a ∈ wanted, a ∈ r.client.allowedAudiences) ∧
    r.client.allowedAudiences ≠ [] ∧
    resolveAudience r.backend r.client wanted roleIds = .ok i.audience
  sessionId : i.sessionId = uuidClaim subject "sid"
  orgId : i.orgId = uuidClaim subject "org_id"
  notAfter : i.notAfter = some ((((index subject "exp").asI64).bind fromTimestamp).getD r.now)
  issueRefresh : i.issueRefresh = false

variable {client : Client}

lemma exchangeScopes_ok {subject : Members} {scope : Option String}
    {scopes : List String} (h : exchangeScopes client subject scope = .ok scopes) :
    ∀ s ∈ scopes, s ∈ scopesOf subject ∧ s ∈ client.allowedScopes := by
  cases scope with
  | none =>
      cases h
      intro s hs
      rw [List.mem_filter] at hs
      exact ⟨hs.1, List.contains_iff_mem.mp hs.2⟩
  | some raw =>
      rw [exchangeScopes] at h
      split at h
      · cases h
      · cases h
      · next hgranted hallowed =>
          cases h
          rw [List.find?_eq_none] at hgranted hallowed
          intro s hs
          have hin := hgranted s hs
          have hmay := hallowed s hs
          simp only [Bool.not_eq_true', Bool.not_eq_false, List.contains_iff_mem] at hin hmay
          exact ⟨hin, hmay⟩

lemma exchangeAudiences_ok {B : Backend} {params : RawParams} {wanted : List String}
    (h : exchangeAudiences B client params = .ok wanted) :
    (∀ a ∈ wanted, a ∈ client.allowedAudiences) ∧ client.allowedAudiences ≠ [] := by
  simp only [exchangeAudiences, bind_eq_ok, require_eq_ok] at h
  obtain ⟨_, _, wanted', _, _, hne, h⟩ := h
  cases hfind : wanted'.find? fun a => !client.allowedAudiences.contains a with
  | some a =>
      rw [hfind] at h
      cases h
  | none =>
      rw [hfind] at h
      cases h
      rw [List.find?_eq_none] at hfind
      refine ⟨fun a ha => ?_, ?_⟩
      · have hmay := hfind a ha
        simpa using hmay
      · rintro hnil
        rw [hnil] at hne
        cases hne

lemma checkBinding_ok {proof : SenderProof} {subject : Members} {u : Unit}
    (h : checkBinding client proof subject = .ok u) :
    (∀ k, boundKey subject = some k → proof.jkt = some k) ∧ ∀ c, boundCertificate subject = some c →
        proof.x5t = some c ∧ client.tlsClientCertificateBoundAccessTokens = true := by
  simp only [checkBinding, bind_eq_ok, require_eq_ok] at h
  obtain ⟨_, hkey, hcert⟩ := h
  refine ⟨fun k hk => ?_, fun c hc => ?_⟩
  · rw [boundKey] at hk
    simpa [hk] using hkey
  · rw [boundCertificate] at hc
    simpa [hc] using hcert

/-- **What an accepted exchange comes to**, from the verified claims of the subject token. -/
theorem tokenExchange_ok {r : Request} {i : Issue}
    (h : tokenExchange r.backend r.client r.params r.proof r.now = .ok i) :
    ∃ token subject, subjectToken r.client r.params = .ok token ∧
      Tokens.verifyAccess r.backend.verifier r.backend.tenant {} r.now token r.backend.denied =
        .ok subject ∧ Exchanged r subject i := by
  simp only [tokenExchange, bind_eq_ok] at h
  obtain ⟨token, htoken, subject, hsubject, _, hbinding, _, _, _, _, actor, _, scope, _, h⟩ := h
  simp only [redeemExchange, bind_eq_ok] at h
  obtain ⟨scopes, hscopes, user, huser, wanted, hwanted, audience, haudience, h⟩ := h
  cases h
  obtain ⟨hkey, hcertificate⟩ := checkBinding_ok hbinding
  obtain ⟨hmay, hne⟩ := exchangeAudiences_ok hwanted
  exact ⟨token, subject, htoken, mapErr_eq_ok.mp hsubject, rfl, rfl, hkey, hcertificate,
    exchangeScopes_ok hscopes, huser, ⟨wanted, _, hmay, hne, haudience⟩, rfl, rfl, rfl, rfl⟩

/-! ## Whose token it is -/

/-- The claims of a token lead to the user it was issued to, and to nobody when there was none. -/
def Recoverable (B : Backend) (req : AccessTokenRequest) : Prop :=
  match req.user with
  | some user => req.client.subjectType = .publicSubject ∨
      ∃ sid, req.sessionId = some sid ∧ B.sessionUser sid = some user.id.toNat
  | none => Uuid128.parseStr req.client.clientId = none ∧
      ∀ sid, req.sessionId = some sid → B.sessionUser sid = none

section Subject

variable {S : TokenService} {req : AccessTokenRequest} {jti : Uuid} {exp : Instant}
  {claims : Members} {B : Backend}

lemma uuidClaim_sid (h : Tokens.Tells S req jti exp claims)
    (hsid : ∀ sid ∈ req.sessionId, sid < 2 ^ 128) : uuidClaim claims "sid" = req.sessionId := by
  rw [uuidClaim_of_get h.sid]
  cases hsession : req.sessionId with
  | none => rfl
  | some sid =>
      have hlt := hsid sid hsession
      rw [Option.map_some, BitVec.toNat_ofNat, Nat.mod_eq_of_lt hlt]

lemma uuidClaim_sub (h : Tokens.Tells S req jti exp claims) : uuidClaim claims "sub" =
    (Uuid128.parseStr (req.user.elim req.client.clientId (Tokens.subjectFor S req.client))).map
      BitVec.toNat := by
  rw [uuidClaim, index, h.sub]
  rfl

lemma subjectUserId_eq_iff (h : Tokens.Tells S req jti exp claims)
    (hpairwise : ∀ sector user, Uuid128.parseStr (S.pairwiseSubject sector user) = none)
    (hsid : ∀ sid ∈ req.sessionId, sid < 2 ^ 128) :
    subjectUserId B claims = req.user.map (fun u => u.id.toNat) ↔ Recoverable B req := by
  rw [subjectUserId, uuidClaim_sid h hsid, uuidClaim_sub h, Recoverable]
  cases req.user with
  | none => simp [Option.or_eq_none_iff]
  | some user =>
      cases htype : req.client.subjectType with
      | publicSubject =>
          have hsub : Tokens.subjectFor S req.client user = String.ofList user.id.text := by
            rw [Tokens.subjectFor, htype]
            simp only [uuidText, BitVec.ofNat_toNat, BitVec.setWidth_eq]
          simp [hsub, Uuid128.parseStr_text]
      | pairwise =>
          have hsub : Uuid128.parseStr (Tokens.subjectFor S req.client user) = none := by
            rw [Tokens.subjectFor, htype]
            exact hpairwise _ _
          simp [hsub, Option.bind_eq_some_iff]

lemma loadSubjectOf_ok (hB : B.Keyed) {userId orgId : Option Uuid} {subject : Option Subject}
    (h : loadSubjectOf B userId orgId = .ok subject) :
    subject.map (fun s => s.user.id.toNat) = userId := by
  cases userId with
  | none =>
      cases h
      rfl
  | some uid =>
      rw [loadSubjectOf] at h
      cases hload : loadSubject B uid orgId with
      | error e =>
          rw [hload] at h
          cases h
      | ok s =>
          rw [hload] at h
          cases h
          simp only [loadSubject, bind_eq_ok, orError_eq_ok] at hload
          obtain ⟨user, huser, _, _, hload⟩ := hload
          cases hload
          rw [Option.map_some, hB.user huser]

end Subject

/-- **When an exchange acts for the same subject.**  For every subject token that was issued and every
accepted exchange of it: `sub` of the new token is its user, or the client when it has none; and its
user is the one the subject token was issued to exactly when

* the subject is public, or the session the token was issued in is live, for a token of a user;
* the client's id is no UUID and no live session is named, for a token of a client. -/
theorem exchange_keeps_subject_iff (S : TokenService) (req : AccessTokenRequest) (jti : Uuid)
    (issuedAt : Instant) (t : IssuedToken) (hissued : issueAccessToken S req jti issuedAt = .ok t)
    (hpairwise : ∀ sector user, Uuid128.parseStr (S.pairwiseSubject sector user) = none)
    (hsid : ∀ sid ∈ req.sessionId, sid < 2 ^ 128) (r : Request) (hkeyed : r.backend.Keyed)
    (htoken : subjectToken r.client r.params = .ok t.token)
    (hstands : ∀ claims, Tokens.checkAccess r.backend.verifier r.backend.tenant {} r.now t.token =
      .ok claims → claims = t.claims)
    (i granted : Issue) (access : IssuedToken)
    (hexchange : tokenExchange r.backend r.client r.params r.proof r.now = .ok i)
    (haccess : issueAccess r.backend i r.draws.jti r.now = .ok (granted, access)) :
    access.claims.get "sub" = some (.string (i.subject.elim r.client.clientId fun s =>
        Tokens.subjectFor r.backend.service (tokenClient r.backend granted) s.user)) ∧
      (i.subject.map (fun s => s.user.id) = req.user.map User.id ↔ Recoverable r.backend req) := by
  obtain ⟨token, subject, htoken', hverified, hexchanged⟩ := tokenExchange_ok hexchange
  obtain rfl : t.token = token := Except.ok.inj (htoken.symm.trans htoken')
  obtain rfl := hstands subject (Tokens.verifyAccess_eq_ok.mp hverified).1
  have htells : Tokens.Tells S req jti t.expiresAt t.claims := by
    rw [(Tokens.issueAccessToken_ok hissued).1]
    exact Tokens.tells_accessClaims S req jti issuedAt t.expiresAt
  refine ⟨?_, ?_⟩
  · obtain ⟨hgranted, hnew⟩ := issueAccess_ok haccess
    have huser : (accessRequest r.backend granted).user = i.subject.map Subject.user :=
      congrArg (fun i => i.subject.map Subject.user) hgranted
    have hclient : (accessRequest r.backend granted).client.clientId = r.client.clientId := by
      rw [← hexchanged.client]
      exact congrArg (fun i => i.client.clientId) hgranted
    rw [(Tokens.issueAccessToken_ok hnew).1, (Tokens.tells_accessClaims _ _ _ _ _).sub, huser, hclient]
    cases i.subject <;> rfl
  · rw [← subjectUserId_eq_iff htells hpairwise hsid, ← loadSubjectOf_ok hkeyed hexchanged.user]
    cases i.subject <;> cases req.user <;> simp [BitVec.toNat_inj]

/-! ## Chains of exchanges -/

/-- The token a request gets for `t`. -/
def exchangeStep (t : IssuedToken) (r : Request) : Option IssuedToken :=
  match subjectToken r.client r.params, tokenExchange r.backend r.client r.params r.proof r.now with
  | .ok token, .ok i =>
      if token = t.token then
        (issueTokens r.backend i r.draws r.now []).toOption.map fun issued => issued.2.access
      else none
  | _, _ => none

/-- Chains of exchanges: each request presents the token the one before it got. -/
def exchanges : Machine IssuedToken Request := ⟨exchangeStep⟩

/-- A token this service has issued, and what stands for it. -/
structure Issuance (claimsOf : String → Members) (t : IssuedToken) : Prop where
  issued : ∃ S req jti now, issueAccessToken S req jti now = .ok t
  dateTime : IsDateTime t.expiresAt
  stands : claimsOf t.token = t.claims

/-- `t` grants nothing that `u` does not. -/
structure Narrows (u t : IssuedToken) : Prop where
  scopes : scopesOf t.claims ⊆ scopesOf u.claims
  exp : ∃ e e', (index u.claims "exp").asI64 = some e ∧ (index t.claims "exp").asI64 = some e' ∧ e' ≤ e
  key : ∀ k, boundKey u.claims = some k → boundKey t.claims = some k
  certificate : ∀ c, boundCertificate u.claims = some c → boundCertificate t.claims = some c
  sid : t.claims.get "sid" = u.claims.get "sid"
  orgId : t.claims.get "org_id" = u.claims.get "org_id"

section Chains

variable {claimsOf : String → Members} {t t' u : IssuedToken} {r : Request}

lemma Issuance.tells (h : Issuance claimsOf t) :
    ∃ S req jti, Tokens.Tells S req jti t.expiresAt t.claims := by
  obtain ⟨S, req, jti, now, hissued⟩ := h.issued
  refine ⟨S, req, jti, ?_⟩
  rw [(Tokens.issueAccessToken_ok hissued).1]
  exact Tokens.tells_accessClaims S req jti now t.expiresAt

lemma asI64_exp (h : Issuance claimsOf t) :
    (index t.claims "exp").asI64 = some (unixTime t.expiresAt) := by
  obtain ⟨S, req, jti, htells⟩ := h.tells
  have hrange := isDateTime_iff.mp h.dateTime
  rw [index, htells.exp, Option.getD_some, intJson, Value.asI64, integer_toString, Option.filter_eq_some_iff]
  refine ⟨rfl, ?_⟩
  simp only [Bool.and_eq_true, decide_eq_true_eq]
  omega

lemma Narrows.refl (h : Issuance claimsOf t) : Narrows t t :=
  ⟨List.Subset.refl _, ⟨_, _, asI64_exp h, asI64_exp h, le_refl _⟩, fun _ hk => hk, fun _ hc => hc,
    rfl, rfl⟩

lemma Narrows.trans {t₁ t₂ t₃ : IssuedToken} (h₁ : Narrows t₁ t₂) (h₂ : Narrows t₂ t₃) :
    Narrows t₁ t₃ := by
  obtain ⟨e₁, e₂, he₁, he₂, hle⟩ := h₁.exp
  obtain ⟨e₂', e₃, he₂', he₃, hle'⟩ := h₂.exp
  obtain rfl : e₂ = e₂' := Option.some.inj (he₂.symm.trans he₂')
  exact ⟨List.Subset.trans h₂.scopes h₁.scopes, ⟨e₁, e₃, he₁, he₃, hle'.trans hle⟩,
    fun k hk => h₂.key k (h₁.key k hk), fun c hc => h₂.certificate c (h₁.certificate c hc),
    h₂.sid.trans h₁.sid, h₂.orgId.trans h₁.orgId⟩

lemma exchangeStep_eq (h : Issuance claimsOf t) (hfaithful : Faithful claimsOf r)
    (hstep : exchangeStep t r = some t') : ∃ i granted, Exchanged r t.claims i ∧
      granted = { i with scopes := granted.scopes } ∧ granted.scopes ⊆ i.scopes ∧
      issueAccessToken r.backend.service (accessRequest r.backend granted) r.draws.jti r.now =
        .ok t' := by
  rw [exchangeStep] at hstep
  split at hstep
  swap
  · cases hstep
  next token i htoken hexchange =>
    split_ifs at hstep with hsame
    subst hsame
    obtain ⟨issued, hissued, rfl⟩ := Option.map_eq_some_iff.mp hstep
    rw [toOption_eq_some] at hissued
    obtain ⟨token', subject, htoken', hverified, hexchanged⟩ := tokenExchange_ok hexchange
    obtain rfl : t.token = token' := Except.ok.inj (htoken.symm.trans htoken')
    have hsubject := hfaithful.verified (Tokens.verifyAccess_eq_ok.mp hverified).1
    rw [h.stands] at hsubject
    subst hsubject
    obtain ⟨⟨granted, haccess⟩, -⟩ := issueTokens_ok hissued
    obtain ⟨hgranted, hnew⟩ := issueAccess_ok haccess
    exact ⟨i, granted, hexchanged, hgranted, issueAccess_scopes haccess, hnew⟩

lemma unixTime_min (now : ℤ) (ttl : ℕ) (e : ℤ) :
    min (unixTime now) e ≤ unixTime (min (now + seconds ttl) (seconds e)) ∧
      unixTime (min (now + seconds ttl) (seconds e)) ≤ e := by
  simp only [unixTime, seconds]
  omega

lemma exchange_expiry {i granted : Issue} (h : Issuance claimsOf t) (hnow : IsDateTime r.now)
    (hexchanged : Exchanged r t.claims i) (hgranted : granted = { i with scopes := granted.scopes })
    (hexp : t'.expiresAt = Tokens.accessExpiry (accessRequest r.backend granted).client r.now) :
    IsDateTime t'.expiresAt ∧ unixTime t'.expiresAt ≤ unixTime t.expiresAt := by
  have hend : granted.notAfter = some (seconds (unixTime t.expiresAt)) := by
    rw [hgranted]
    change i.notAfter = _
    rw [hexchanged.notAfter, asI64_exp h, Option.bind_some, h.dateTime, Option.getD_some]
  have hmin : t'.expiresAt = min (r.now + seconds (tokenClient r.backend granted).accessTokenTtl)
      (seconds (unixTime t.expiresAt)) := by
    rw [hexp, Tokens.accessExpiry]
    change (granted.notAfter).elim _ _ = _
    rw [hend]
    rfl
  have hsubject := isDateTime_iff.mp h.dateTime
  have hbounds := unixTime_min r.now (tokenClient r.backend granted).accessTokenTtl
    (unixTime t.expiresAt)
  rw [isDateTime_iff] at hnow ⊢
  rw [hmin]
  omega

/-- **One exchange only narrows**, and leaves a token that can be exchanged again. -/
lemma exchange_narrows_step (h : Issuance claimsOf t) (hfaithful : Faithful claimsOf r)
    (hkeyed : r.backend.Keyed) (hnow : IsDateTime r.now) (hstep : exchangeStep t r = some t') :
    Issuance claimsOf t' ∧ Narrows t t' ∧ scopesOf t'.claims ⊆ r.client.allowedScopes ∧
      ∀ a ∈ audiencesOf t'.claims, a ∈ r.client.allowedAudiences ∨
        ∃ m ∈ r.backend.mappers r.client, m.kind = .audience a := by
  obtain ⟨i, granted, hexchanged, hgranted, hsub, hnew⟩ := exchangeStep_eq h hfaithful hstep
  obtain ⟨hclaims, hexp, hmint⟩ := Tokens.issueAccessToken_ok hnew
  obtain ⟨hdate, hle⟩ := exchange_expiry h hnow hexchanged hgranted hexp
  have htells : Tokens.Tells r.backend.service (accessRequest r.backend granted) r.draws.jti
      t'.expiresAt t'.claims := by
    rw [hclaims]
    exact Tokens.tells_accessClaims _ _ _ _ _
  obtain ⟨S, req, jti, hold⟩ := h.tells
  have hissued : Issuance claimsOf t' := ⟨⟨_, _, _, _, hnew⟩, hdate, hfaithful.issued hmint⟩
  have hscopes : scopesOf t'.claims ⊆ granted.scopes := by
    rw [scopesOf, index, htells.scope, Option.getD_some, Value.asStr, Option.getD_some]
    refine parseScopeParam_intercalate fun s hs => ?_
    exact isScope_of_mem (hexchanged.scopes s (hsub hs)).1
  refine ⟨hissued, ⟨?_, ?_, ?_, ?_, ?_, ?_⟩, ?_, ?_⟩
  · exact fun s hs => (hexchanged.scopes s (hsub (hscopes hs))).1
  · exact ⟨_, _, asI64_exp h, asI64_exp hissued, hle⟩
  · intro k hk
    rw [boundKey_of_cnf htells.cnf, hgranted]
    change i.proof.jkt = some k
    rw [hexchanged.proof]
    exact hexchanged.key k hk
  · intro c hc
    obtain ⟨hx5t, hbound⟩ := hexchanged.certificate c hc
    rw [boundCertificate_of_cnf htells.cnf, hgranted]
    change (if i.client.tlsClientCertificateBoundAccessTokens then i.proof.x5t else none) = some c
    rw [hexchanged.client, hexchanged.proof, hbound, if_pos rfl, hx5t]
  · rw [htells.sid, hgranted]
    change i.sessionId.map uuidJson = _
    rw [hexchanged.sessionId, uuidJson_uuidClaim hold.sid]
  · rw [htells.orgId, hgranted]
    change i.orgId.map uuidJson = _
    rw [hexchanged.orgId, uuidJson_uuidClaim hold.orgId]
  · exact fun s hs => (hexchanged.scopes s (hsub (hscopes hs))).2
  · intro a ha
    obtain ⟨wanted, roleIds, hmay, hne, haudience⟩ := hexchanged.audience
    have hresources : (accessRequest r.backend granted).audiences =
        if wanted.isEmpty then r.client.allowedAudiences else wanted := by
      rw [hgranted]
      exact resolveAudience_ok hkeyed haudience
    have hclient : granted.client = r.client := by
      rw [hgranted]
      exact hexchanged.client
    rcases mem_audiencesOf htells ha with hmem | hmem | ⟨hnil, rfl⟩
    · left
      rw [hresources] at hmem
      split_ifs at hmem with hempty
      · exact hmem
      · exact hmay a hmem
    · rw [← hclient]
      exact .inr hmem
    · -- a client with no audience of its own cannot have exchanged
      exfalso
      rw [hresources] at hnil
      split_ifs at hnil with hempty
      · exact hne hnil
      · rw [hnil] at hempty
        exact hempty rfl

/-- **Token exchange only narrows.**  In every chain of exchanges, whoever makes them:

* the last token has no scope that an earlier one lacks, it ends no later than any of them, it is
  bound to every key and certificate an earlier one is bound to, and its `sid` and `org_id` are those
  of all of them;
* every one of its scopes is allowed to every client of the chain;
* every one of its audiences is allowed to the last client, or is put in by an `audience` mapper. -/
theorem exchanges_narrow (claimsOf : String → Members) (t₀ t : IssuedToken) (rs : List Request)
    (h₀ : Issuance claimsOf t₀) (hfaithful : ∀ r ∈ rs, Faithful claimsOf r)
    (hkeyed : ∀ r ∈ rs, r.backend.Keyed) (hnow : ∀ r ∈ rs, IsDateTime r.now)
    (hrun : exchanges.run t₀ rs = some t) :
    (∀ before after u, rs = before ++ after → exchanges.run t₀ before = some u → Narrows u t) ∧
      (∀ r ∈ rs, scopesOf t.claims ⊆ r.client.allowedScopes) ∧
      ∀ r ∈ rs.getLast?, ∀ a ∈ audiencesOf t.claims, a ∈ r.client.allowedAudiences ∨
        ∃ m ∈ r.backend.mappers r.client, m.kind = .audience a := by
  induction rs generalizing t₀ with
  | nil =>
      rw [Machine.run_nil, Option.some.injEq] at hrun
      subst hrun
      refine ⟨fun before after u hsplit hu => ?_, fun r hr => absurd hr List.not_mem_nil, by simp⟩
      obtain ⟨rfl, -⟩ := List.append_eq_nil_iff.mp hsplit.symm
      rw [Machine.run_nil, Option.some.injEq] at hu
      exact hu ▸ Narrows.refl h₀
  | cons r rs ih =>
      obtain ⟨t₁, hstep, hrest⟩ := Machine.run_cons.mp hrun
      rw [List.forall_mem_cons] at hfaithful hkeyed hnow
      obtain ⟨h₁, hnarrows, hscopes, haudiences⟩ :=
        exchange_narrows_step h₀ hfaithful.1 hkeyed.1 hnow.1 hstep
      obtain ⟨hbefore, hclients, hlast⟩ := ih t₁ h₁ hfaithful.2 hkeyed.2 hnow.2 hrest
      have hnarrows' : Narrows t₁ t := hbefore [] rs t₁ rfl Machine.run_nil
      refine ⟨fun before after u hsplit hu => ?_, ?_, ?_⟩
      · cases before with
        | nil =>
            rw [Machine.run_nil, Option.some.injEq] at hu
            exact hu ▸ hnarrows.trans hnarrows'
        | cons r' before =>
            rw [List.cons_append, List.cons.injEq] at hsplit
            obtain ⟨rfl, hsplit⟩ := hsplit
            obtain ⟨u₁, hu₁, hu⟩ := Machine.run_cons.mp hu
            obtain rfl : t₁ = u₁ := Option.some.inj (hstep.symm.trans hu₁)
            exact hbefore before after u hsplit hu
      · rw [List.forall_mem_cons]
        exact ⟨List.Subset.trans hnarrows'.scopes hscopes, hclients⟩
      · cases rs with
        | nil =>
            rw [Machine.run_nil, Option.some.injEq] at hrest
            subst hrest
            rintro _ ⟨⟩
            exact haudiences
        | cons r' rs => exact hlast

end Chains

/-! ## A gateway and the service behind it -/

def heldService : TokenService where
  formats := ⟨fun _ _ => none, fun _ => none⟩
  schema := []
  enabledFeatures _ := []
  pairwiseSubject _ _ := "x7Dq2mP0sVn4bKcT9yZfE1hRjL8wGuA5oXiN3tQeM6k"
  mint _ _ _ _ := .ok "held"

def heldRequest (subjectType : Tokens.SubjectType) : AccessTokenRequest where
  tenant := ⟨3, "https://id.example/t/acme"⟩
  client :=
    { clientId := "app", subjectType := subjectType, sectorIdentifier := none, accessTokenTtl := 300,
      mappers := [], accessTokenFormat := .jwt, accessTokenAlg := none, permissions := [],
      notAfter := none }
  user := some { id := 7, username := "ada", createdAt := 0, updatedAt := 0 }
  scopes := ["orders", "reports"]
  audiences := []
  roles := []
  groups := []
  sessionId := some 9
  authTime := none
  amr := []
  acr := none
  orgId := none
  cnfJkt := some "key"
  cnfX5t := none
  act := none

def held (subjectType : Tokens.SubjectType) : IssuedToken where
  token := "held"
  claims := Tokens.accessClaims heldService (heldRequest subjectType) 32 (seconds 100) (seconds 400)
  expiresAt := seconds 400

def passedClaims (sub client scope jti : String) : Members :=
  [("iss", .string "https://id.example/t/acme"), ("sub", .string sub),
    ("aud", .string "https://api.example"), ("client_id", .string client), ("azp", .string client),
    ("iat", .number "100"), ("nbf", .number "100"), ("exp", .number "400"), ("jti", .string jti),
    ("tid", .string "00000000-0000-0000-0000-000000000003"), ("scope", .string scope)]

def passedRest : Members :=
  [("sid", .string "00000000-0000-0000-0000-000000000009"),
    ("cnf", .object [("jkt", .string "key")])]

def passedClaimsOf (subjectType : Tokens.SubjectType) : String → Members
  | "held" => (held subjectType).claims
  | "passed" => passedClaims "00000000-0000-0000-0000-000000000007" "gateway" "orders"
      "00000000-0000-0000-0000-000000000021" ++ [("roles", .array []), ("groups", .array [])] ++ passedRest
  | "passed on" => passedClaims "00000000-0000-0000-0000-000000000007" "billing" "orders"
      "00000000-0000-0000-0000-000000000022" ++ [("roles", .array []), ("groups", .array [])] ++ passedRest
  | "lost" => passedClaims "gateway" "gateway" "orders" "00000000-0000-0000-0000-000000000021" ++ passedRest
  | _ => []

def passes (subjectType : Tokens.SubjectType) (subject next clientId : String) (jti : Uuid) : Request where
  backend := plainBackend (fun claims => if passedClaimsOf subjectType next = claims then .ok next
    else .error (.internal "another token")) (passedClaimsOf subjectType)
  client :=
    { id := 11, clientId := clientId, allowedGrants := [], allowedScopes := ["orders"],
      allowedAudiences := ["https://api.example"] }
  params := [("subject_token", subject), ("subject_token_type", ACCESS_TOKEN)]
  proof := ⟨some "key", none⟩
  draws := ⟨jti, 40, ⟨41, "rt_1"⟩⟩
  now := seconds 100

def passesHeld : Request := passes .publicSubject "held" "passed" "gateway" 33

/-- A public subject is exchanged for the same user. -/
theorem exchange_keeps_subject_public : ∃ i, tokenExchange passesHeld.backend passesHeld.client
    passesHeld.params passesHeld.proof passesHeld.now = .ok i ∧
      i.subject.map (fun s => s.user.id) = some 7 := by
  have hsome : ((tokenExchange passesHeld.backend passesHeld.client passesHeld.params passesHeld.proof
      passesHeld.now).toOption.bind fun i => (issueAccess passesHeld.backend i passesHeld.draws.jti
        passesHeld.now).toOption).isSome = true := by decide +kernel
  obtain ⟨⟨granted, access⟩, hsome⟩ := Option.isSome_iff_exists.mp hsome
  obtain ⟨i, hi, haccess⟩ := Option.bind_eq_some_iff.mp hsome
  rw [toOption_eq_some] at hi haccess
  have hpairwise : Uuid128.parseStr "x7Dq2mP0sVn4bKcT9yZfE1hRjL8wGuA5oXiN3tQeM6k" = none := by
    decide +kernel
  refine ⟨i, hi, (exchange_keeps_subject_iff heldService (heldRequest .publicSubject) 32 (seconds 100)
    (held .publicSubject) rfl (fun _ _ => hpairwise) (by decide) passesHeld
    (keyed_plainBackend _ _) (by decide +kernel) (fun claims h => ?_) i granted access hi haccess).2.mpr
    (.inl rfl)⟩
  exact ((faithful_plainBackend (r := passesHeld) rfl).verified h).symm

/-- **Two exchanges.**  The gateway narrows the scopes to its own, and the service behind it gets no
more: same key, same end, same session. -/
theorem exchanges_narrow_twice : Narrows (held .publicSubject)
    ⟨"passed on", passedClaimsOf .publicSubject "passed on", seconds 400⟩ := by
  refine (exchanges_narrow (passedClaimsOf .publicSubject) (held .publicSubject) _
    [passesHeld, passes .publicSubject "passed" "passed on" "billing" 34] ?_ ?_ ?_ ?_
    (by decide +kernel)).1 [] _ _ rfl Machine.run_nil
  · exact ⟨⟨heldService, heldRequest .publicSubject, 32, seconds 100, rfl⟩, rfl, rfl⟩
  · rw [List.forall_mem_cons, List.forall_mem_singleton]
    exact ⟨faithful_plainBackend rfl, faithful_plainBackend rfl⟩
  · rw [List.forall_mem_cons, List.forall_mem_singleton]
    exact ⟨keyed_plainBackend _ _, keyed_plainBackend _ _⟩
  · rw [List.forall_mem_cons, List.forall_mem_singleton]
    exact ⟨rfl, rfl⟩

/-- **An exchange loses the user.**  The token was issued to a user under a pairwise subject, and the
session it names has ended.  The gateway exchanges it, and gets a token that is its own. -/
theorem exchange_loses_user :
    issueAccessToken heldService (heldRequest .pairwise) 32 (seconds 100) = .ok (held .pairwise) ∧
      (heldRequest .pairwise).user.isSome = true ∧
      ∃ access, exchangeStep (held .pairwise) (passes .pairwise "held" "lost" "gateway" 33) =
          some access ∧
        access.claims.get "sub" = some (.string "gateway") := by
  refine ⟨rfl, rfl, ⟨"lost", passedClaimsOf .pairwise "lost", seconds 400⟩, by decide +kernel, ?_⟩
  decide +kernel

end Ridm.TokenEndpoint
