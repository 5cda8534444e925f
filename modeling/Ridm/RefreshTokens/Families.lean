import Ridm.RefreshTokens.Model
import Ridm.Lib.Interleaving
import Mathlib.Data.List.Pairwise

/-!
# Token families

What every sequence of operations keeps true of every family: at most one token is live, and all
tokens carry the same grant (`families_sound`).  A family starts with the one token `issue`
inserts; `redeem` consumes the live one before it inserts its successor, a copy of it; everything
else only ages tokens (`Ages`): it consumes or revokes, and touches nothing else.
-/

namespace Ridm.RefreshTokens

/-- What all tokens of a family are to agree on. -/
structure Grant where
  clientId : String
  userId : Option Uuid
  sessionId : Option Uuid
  scopes : List String
  audiences : List String
  authTime : Option Instant
  amr : List String
  acr : Option String
  orgId : Option Uuid
  act : Option Value
  dpopJkt : Option String
  mtlsX5t : Option String
  expiresAt : Instant

def RefreshToken.grant (t : RefreshToken) : Grant where
  clientId := t.clientId
  userId := t.userId
  sessionId := t.sessionId
  scopes := t.scopes
  audiences := t.audiences
  authTime := t.authTime
  amr := t.amr
  acr := t.acr
  orgId := t.orgId
  act := t.act
  dpopJkt := t.dpopJkt
  mtlsX5t := t.mtlsX5t
  expiresAt := t.expiresAt

variable {tokens : Table} {t : RefreshToken} {hash : String → Digest}

lemma isLive_iff :
    t.isLive = true ↔ t.consumedAt = none ∧ t.revokedAt = none := by
  simp [RefreshToken.isLive]

/-- Both tokens are of one family. -/
def RefreshToken.SameFamily (t t' : RefreshToken) : Prop :=
  t.tenantId = t'.tenantId ∧ t.familyId = t'.familyId

lemma RefreshToken.SameFamily.symm {t t' : RefreshToken} (h : t.SameFamily t') :
    t'.SameFamily t := ⟨h.1.symm, h.2.symm⟩

/-- Not both tokens are live tokens of one family. -/
def Apart (t t' : RefreshToken) : Prop :=
  ¬ (t.SameFamily t' ∧ t.isLive = true ∧ t'.isLive = true)

instance : Std.Symm Apart where
  symm _ _ h := fun ⟨hfam, ht, ht'⟩ => h ⟨hfam.symm, ht', ht⟩

/-- **The invariant** of the table. -/
structure Inv (tokens : Table) : Prop where
  agree : ∀ t ∈ tokens, ∀ t' ∈ tokens, t.SameFamily t' → t.grant = t'.grant
  apart : tokens.Pairwise Apart

def liveOf (tokens : Table) (tenantId familyId : Uuid) : List RefreshToken :=
  tokens.filter fun t => inFamily tenantId familyId t && t.isLive

variable {P : RefreshToken → Prop} {f : RefreshToken → RefreshToken} {tenantId familyId : Uuid}
  {clientId : String} {op : Op}

lemma inFamily_iff :
    inFamily tenantId familyId t = true ↔ t.tenantId = tenantId ∧ t.familyId = familyId := by
  simp [inFamily]

lemma Inv.liveOf_le_one (h : Inv tokens) (tenantId familyId : Uuid) :
    (liveOf tokens tenantId familyId).length ≤ 1 := by
  have hmem : ∀ t ∈ liveOf tokens tenantId familyId,
      (t.tenantId = tenantId ∧ t.familyId = familyId) ∧ t.isLive = true := by
    intro t ht
    simpa [liveOf, inFamily_iff] using (List.mem_filter.mp ht).2
  have hpair : (liveOf tokens tenantId familyId).Pairwise Apart := h.apart.filter _
  match hlive : liveOf tokens tenantId familyId with
  | [] => simp
  | [t] => simp
  | t :: t' :: rest =>
      rw [hlive] at hmem hpair
      obtain ⟨⟨htid, htfam⟩, ht⟩ := hmem t (by simp)
      obtain ⟨⟨htid', htfam'⟩, ht'⟩ := hmem t' (by simp)
      have hapart : Apart t t' := List.rel_of_pairwise_cons hpair (by simp)
      exact absurd ⟨⟨htid.trans htid'.symm, htfam.trans htfam'.symm⟩, ht, ht'⟩ hapart

/-! ## Ageing -/

/-- `t'` is `t`, perhaps consumed or revoked since. -/
structure Ages (t t' : RefreshToken) : Prop where
  tenantId : t'.tenantId = t.tenantId
  familyId : t'.familyId = t.familyId
  grant : t'.grant = t.grant
  live : t'.isLive = true → t.isLive = true

lemma Ages.refl (t : RefreshToken) : Ages t t := ⟨rfl, rfl, rfl, id⟩

lemma ages_revokeIf (p : RefreshToken → Bool) (now : Instant) (t : RefreshToken) :
    Ages t (revokeIf p now t) := by
  simp only [revokeIf]
  split_ifs
  · exact ⟨rfl, rfl, rfl, by simp [RefreshToken.isLive]⟩
  · exact Ages.refl t

lemma ages_consumeIf (tenantId id : Uuid) (now : Instant) (t : RefreshToken) :
    Ages t (consumeIf tenantId id now t) := by
  simp only [consumeIf]
  split_ifs
  · exact ⟨rfl, rfl, rfl, by simp [RefreshToken.isLive]⟩
  · exact Ages.refl t

/-- **Ageing keeps the invariant.** -/
lemma Inv.map (h : Inv tokens) (hf : ∀ t, Ages t (f t)) : Inv (tokens.map f) where
  agree := by
    intro s hs s' hs' hfam
    obtain ⟨t, ht, rfl⟩ := List.mem_map.mp hs
    obtain ⟨t', ht', rfl⟩ := List.mem_map.mp hs'
    rw [(hf t).grant, (hf t').grant]
    refine h.agree t ht t' ht' ⟨?_, ?_⟩
    · rw [← (hf t).tenantId, ← (hf t').tenantId, hfam.1]
    · rw [← (hf t).familyId, ← (hf t').familyId, hfam.2]
  apart := by
    refine List.Pairwise.map f ?_ h.apart
    rintro t t' hapart ⟨hfam, hlive, hlive'⟩
    refine hapart ⟨⟨?_, ?_⟩, (hf t).live hlive, (hf t').live hlive'⟩
    · rw [← (hf t).tenantId, ← (hf t').tenantId, hfam.1]
    · rw [← (hf t).familyId, ← (hf t').familyId, hfam.2]

/-- **A new token keeps the invariant** when its family agrees with it and has no live token. -/
lemma Inv.append {new : RefreshToken} (h : Inv tokens)
    (hagree : ∀ t ∈ tokens, t.SameFamily new → t.grant = new.grant)
    (hdead : ∀ t ∈ tokens, t.SameFamily new → t.isLive = false) : Inv (tokens ++ [new]) where
  agree := by
    intro t ht t' ht' hfam
    rw [List.mem_append, List.mem_singleton] at ht ht'
    rcases ht with ht | rfl <;> rcases ht' with ht' | rfl
    · exact h.agree t ht t' ht' hfam
    · exact hagree t ht hfam
    · exact (hagree t' ht' hfam.symm).symm
    · rfl
  apart := by
    rw [List.pairwise_append]
    refine ⟨h.apart, List.pairwise_singleton _ _, ?_⟩
    rintro t ht s hs ⟨hfam, hlive, -⟩
    rw [List.mem_singleton] at hs
    rw [hs] at hfam
    rw [hdead t ht hfam] at hlive
    cases hlive

lemma Inv.revokeWhere (h : Inv tokens) (p : RefreshToken → Bool)
    (now : Instant) : Inv (revokeWhere p now tokens) :=
  h.map (ages_revokeIf p now)

lemma Inv.markConsumed (h : Inv tokens) (tenantId id : Uuid) (now : Instant) :
    Inv (markConsumed tenantId id now tokens) :=
  h.map (ages_consumeIf tenantId id now)

/-! ## The operations -/

lemma grant_successor (hash : String → Digest) (tenantId : Uuid)
    (hclient : t.clientId = clientId) (draw : Draw) (now : Instant) :
    (newRow hash tenantId t.familyId (successorRequest clientId t) t.expiresAt draw now).grant =
      t.grant := by
  subst hclient
  rfl

lemma findByHash_spec {tenantId : Uuid} {tokenHash : Digest}
    (h : findByHash tokens tenantId tokenHash = some t) : t ∈ tokens ∧ t.tenantId = tenantId := by
  refine ⟨List.mem_of_find?_eq_some h, ?_⟩
  have ht := List.find?_some h
  simp only [Bool.and_eq_true, beq_iff_eq] at ht
  exact ht.1

lemma insertIn_ok {tokens tokens' : Table}
    {req : IssueRequest} {expiresAt now : Instant} {draw : Draw} {issued : Issued}
    (h : insertIn hash tokens tenantId familyId req expiresAt draw now = .ok (tokens', issued)) :
    tokens' = tokens ++ [newRow hash tenantId familyId req expiresAt draw now] := by
  simp only [insertIn] at h
  split_ifs at h
  simp only [Except.ok.injEq, Prod.mk.injEq] at h
  exact h.1.symm

/-- What `redeem` may leave of the table: the table itself, with a family revoked, or with a live
token consumed and followed by its successor. -/
inductive Redeemed (hash : String → Digest) (tokens : Table) (req : RedeemRequest) (draw : Draw)
    (now : Instant) : Table → Prop
  | unchanged : Redeemed hash tokens req draw now tokens
  | revoked (familyId : Uuid) :
      Redeemed hash tokens req draw now (revokeFamily req.tenantId familyId now tokens)
  | rotated (t : RefreshToken) (hmem : t ∈ tokens) (htenant : t.tenantId = req.tenantId)
      (hclient : t.clientId = req.clientId) (hlive : t.isLive = true) :
      Redeemed hash tokens req draw now (markConsumed req.tenantId t.id now tokens ++
        [newRow hash req.tenantId t.familyId (successorRequest req.clientId t) t.expiresAt draw now])

lemma exchange_redeemed {req : RedeemRequest} {draw : Draw} {now : Instant} (hmem : t ∈ tokens)
    (htenant : t.tenantId = req.tenantId) (hclient : t.clientId = req.clientId)
    (hlive : t.isLive = true) :
    Redeemed hash tokens req draw now (exchange hash tokens req t draw now).1 := by
  simp only [exchange]
  split_ifs
  · exact .unchanged
  · split
    · rename_i tokens' issued hinsert
      rw [insertIn_ok hinsert]
      exact .rotated t hmem htenant hclient hlive
    · exact .unchanged

lemma redeemFound_redeemed {req : RedeemRequest}
    {sessions : Sessions} {draw : Draw} {now : Instant} (hmem : t ∈ tokens)
    (htenant : t.tenantId = req.tenantId) :
    Redeemed hash tokens req draw now (redeemFound hash tokens req sessions draw now t).1 := by
  by_cases hclient : t.clientId = req.clientId
  swap
  · rw [redeemFound, if_pos hclient]
    exact .unchanged
  by_cases hconsumed : t.consumedAt.isSome = true
  · rw [redeemFound, if_neg (not_not.mpr hclient), if_pos hconsumed]
    exact .revoked t.familyId
  by_cases hrevoked : t.revokedAt.isSome = true
  · rw [redeemFound, if_neg (not_not.mpr hclient), if_neg hconsumed, if_pos hrevoked]
    exact .unchanged
  rw [redeemFound, if_neg (not_not.mpr hclient), if_neg hconsumed, if_neg hrevoked]
  split
  · exact .unchanged
  · split_ifs
    · exact .revoked t.familyId
    · refine exchange_redeemed hmem htenant hclient ?_
      exact isLive_iff.mpr ⟨by simpa using hconsumed, by simpa using hrevoked⟩

/-- **What `redeem` does to the table.** -/
lemma redeem_redeemed (hash : String → Digest) (tokens : Table) (req : RedeemRequest)
    (sessions : Sessions) (draw : Draw) (now : Instant) :
    Redeemed hash tokens req draw now (redeem hash tokens req sessions draw now).1 := by
  simp only [redeem]
  split_ifs
  · exact .unchanged
  · split
    · exact .unchanged
    · rename_i t hfind
      obtain ⟨hmem, htenant⟩ := findByHash_spec hfind
      exact redeemFound_redeemed hmem htenant

/-- `redeem` finds `t`, and none of its checks refuses. -/
structure Accepts (hash : String → Digest) (tokens : Table) (req : RedeemRequest)
    (sessions : Sessions) (now : Instant) (t : RefreshToken) : Prop where
  form : PREFIX.toList.isPrefixOf req.presented.toList = true ∧ req.presented.utf8ByteSize ≤ 256
  found : findByHash tokens req.tenantId (hash req.presented) = some t
  client : t.clientId = req.clientId
  live : t.isLive = true
  check : checkRequest req t now = none
  session : sessionEnded sessions t = false

section Accepted

variable {hash : String → Digest} {tokens : Table} {req : RedeemRequest} {sessions : Sessions}
  {draw : Draw} {now : Instant} {t : RefreshToken} {rotated : Issued}

lemma redeem_of_live
    (hform : PREFIX.toList.isPrefixOf req.presented.toList = true ∧ req.presented.utf8ByteSize ≤ 256)
    (hfound : findByHash tokens req.tenantId (hash req.presented) = some t)
    (hclient : t.clientId = req.clientId) (hlive : t.isLive = true) :
    redeem hash tokens req sessions draw now =
      match checkRequest req t now with
      | some e => (tokens, .error e)
      | none =>
          if sessionEnded sessions t then
            (revokeFamily req.tenantId t.familyId now tokens,
              refuse .invalidGrant "the session this token was issued in has ended")
          else exchange hash tokens req t draw now := by
  obtain ⟨hconsumed, hrevoked⟩ := isLive_iff.mp hlive
  have hform' : (!PREFIX.toList.isPrefixOf req.presented.toList ||
      decide (req.presented.utf8ByteSize > 256)) = false := by
    simp [hform.1, hform.2]
  rw [redeem, hform', hfound, if_neg Bool.false_ne_true]
  show redeemFound hash tokens req sessions draw now t = _
  rw [redeemFound, if_neg (not_not.mpr hclient), hconsumed, hrevoked]
  rfl

lemma Accepts.redeem_eq (h : Accepts hash tokens req sessions now t) :
    redeem hash tokens req sessions draw now = exchange hash tokens req t draw now := by
  rw [redeem_of_live h.form h.found h.client h.live, h.check, h.session]
  rfl

/-- **What is handed out was accepted.** -/
lemma accepts_of_redeem (h : (redeem hash tokens req sessions draw now).2 = .ok rotated) :
    ∃ t, Accepts hash tokens req sessions now t := by
  rw [redeem] at h
  split at h
  · cases h
  next hform =>
    split at h
    · cases h
    next t hfind =>
      rw [redeemFound] at h
      split at h
      · cases h
      next hclient =>
        split at h
        · cases h
        next hconsumed =>
          split at h
          · cases h
          next hrevoked =>
            split at h
            · cases h
            next hcheck =>
              split at h
              · cases h
              next hsession =>
                refine ⟨t, ?_, hfind, not_not.mp hclient, ?_, hcheck, by simpa using hsession⟩
                · simpa using hform
                · rw [isLive_iff]
                  exact ⟨by simpa using hconsumed, by simpa using hrevoked⟩

lemma Accepts.grant_eq (h : Accepts hash tokens req sessions now t)
    (hrotated : (redeem hash tokens req sessions draw now).2 = .ok rotated) :
    rotated.record.grant = t.grant ∧ rotated.record.SameFamily t := by
  have htenant := (findByHash_spec h.found).2
  rw [h.redeem_eq, exchange] at hrotated
  split at hrotated
  · cases hrotated
    exact ⟨rfl, rfl, rfl⟩
  · split at hrotated
    · next tokens' issued hinsert =>
        cases hrotated
        rw [insertIn] at hinsert
        split at hinsert
        · cases hinsert
        · cases hinsert
          exact ⟨grant_successor hash _ h.client _ _, htenant.symm, rfl⟩
    · cases hrotated

end Accepted

/-- What depends on the family and the grant alone: it is passed on to a successor, and kept while a
token ages. -/
def Lasting (P : RefreshToken → Prop) : Prop :=
  ∀ t t' : RefreshToken, t'.SameFamily t → t'.grant = t.grant → P t → P t'

lemma Lasting.map (hP : Lasting P) (hf : ∀ t, Ages t (f t)) (h : ∀ t ∈ tokens, P t) :
    ∀ t ∈ tokens.map f, P t := by
  intro row hrow
  obtain ⟨t, ht, rfl⟩ := List.mem_map.mp hrow
  exact hP t (f t) ⟨(hf t).tenantId, (hf t).familyId⟩ (hf t).grant (h t ht)

lemma Lasting.redeem (hP : Lasting P)
    (h : ∀ t ∈ tokens, P t) (hash : String → Digest) (req : RedeemRequest) (sessions : Sessions)
    (draw : Draw) (now : Instant) :
    ∀ t ∈ (RefreshTokens.redeem hash tokens req sessions draw now).1, P t := by
  have hredeemed := redeem_redeemed hash tokens req sessions draw now
  generalize (RefreshTokens.redeem hash tokens req sessions draw now).1 = tokens' at hredeemed ⊢
  cases hredeemed with
  | unchanged => exact h
  | revoked familyId => exact hP.map (ages_revokeIf _ now) h
  | rotated t hmem htenant hclient hlive =>
      intro row hrow
      rw [List.mem_append, List.mem_singleton] at hrow
      rcases hrow with hrow | rfl
      · exact hP.map (ages_consumeIf _ _ now) h row hrow
      · exact hP t _ ⟨htenant.symm, rfl⟩ (grant_successor hash _ hclient draw now) (h t hmem)

lemma isLive_markConsumed {tenantId id : Uuid} {now : Instant}
    {s : RefreshToken} (h : s ∈ markConsumed tenantId id now tokens) (hlive : s.isLive = true) :
    s ∈ tokens ∧ ¬ (s.tenantId = tenantId ∧ s.id = id) := by
  obtain ⟨t, ht, rfl⟩ := List.mem_map.mp h
  simp only [consumeIf] at hlive ⊢
  split_ifs at hlive ⊢ with hid
  · simp [RefreshToken.isLive] at hlive
  · exact ⟨ht, by simpa using hid⟩

/-- **A rotation keeps the invariant**: the token that was live no longer is, and there was no
other. -/
lemma Inv.rotate {draw : Draw} {now : Instant} (h : Inv tokens) (hmem : t ∈ tokens)
    (hclient : t.clientId = clientId) (hlive : t.isLive = true) :
    Inv (RefreshTokens.markConsumed t.tenantId t.id now tokens ++
      [newRow hash t.tenantId t.familyId (successorRequest clientId t) t.expiresAt draw now]) := by
  refine (h.markConsumed t.tenantId t.id now).append ?_ ?_
  · intro s hs hfam
    rw [grant_successor hash t.tenantId hclient draw now]
    obtain ⟨s₀, hs₀, rfl⟩ := List.mem_map.mp hs
    have hages := ages_consumeIf t.tenantId t.id now s₀
    rw [hages.grant]
    exact h.agree s₀ hs₀ t hmem ⟨hages.tenantId ▸ hfam.1, hages.familyId ▸ hfam.2⟩
  · intro s hs hfam
    by_contra hnot
    have hslive : s.isLive = true := by simpa using hnot
    obtain ⟨hs₀, hother⟩ := isLive_markConsumed hs hslive
    have hne : s ≠ t := fun heq => hother ⟨by rw [heq], by rw [heq]⟩
    have hapart : Apart s t := h.apart.forall hs₀ hmem hne
    exact hapart ⟨hfam, hslive, hlive⟩

/-! ## Sequences of operations -/

/-- An operation, with what it draws and asks. -/
inductive Op
  | issue (tenantId : Uuid) (req : IssueRequest) (familyId : Uuid) (draw : Draw) (now : Instant)
  | redeem (req : RedeemRequest) (sessions : Sessions) (draw : Draw) (now : Instant)
  | revoke (tenantId : Uuid) (clientId presented : String) (now : Instant)
  | revokeForUser (tenantId userId : Uuid) (clientId : Option String) (now : Instant)
  | revokeForSession (tenantId sessionId : Uuid) (now : Instant)

/-- The table after an operation. -/
def apply (hash : String → Digest) (tokens : Table) : Op → Table
  | .issue tenantId req familyId draw now =>
      match issue hash tokens tenantId req familyId draw now with
      | .ok (tokens', _) => tokens'
      | .error _ => tokens
  | .redeem req sessions draw now => (redeem hash tokens req sessions draw now).1
  | .revoke tenantId clientId presented now => revoke hash tokens tenantId clientId presented now
  | .revokeForUser tenantId userId clientId now =>
      (revokeForUser tokens tenantId userId clientId now).1
  | .revokeForSession tenantId sessionId now => (revokeForSession tokens tenantId sessionId now).1

/-- The table under any sequence of operations. -/
def table (hash : String → Digest) : Machine Table Op where
  step tokens op := some (apply hash tokens op)

/-- The family id `issue` draws (`Uuid::now_v7`) is a new one. -/
def FamilyFresh (tokens : Table) : Op → Prop
  | .issue tenantId _ familyId _ _ => ∀ t ∈ tokens, inFamily tenantId familyId t = false
  | _ => True

instance (tokens : Table) : ∀ op, Decidable (FamilyFresh tokens op)
  | .issue .. => inferInstanceAs (Decidable (∀ _ ∈ _, _))
  | .redeem .. | .revoke .. | .revokeForUser .. | .revokeForSession .. => .isTrue trivial

/-- **Every operation keeps the invariant.** -/
lemma Inv.apply (h : Inv tokens) (hfresh : FamilyFresh tokens op) : Inv (apply hash tokens op) := by
  cases op with
  | issue tenantId req familyId draw now =>
      simp only [RefreshTokens.apply]
      split
      · rename_i tokens' issued hissue
        rw [insertIn_ok hissue]
        have hnone : ∀ t ∈ tokens, ¬ t.SameFamily
            (newRow hash tenantId familyId req (now + req.ttl) draw now) := by
          intro t ht hfam
          have hin := inFamily_iff.mpr hfam
          simp [newRow, hfresh t ht] at hin
        exact h.append (fun t ht hfam => absurd hfam (hnone t ht))
          (fun t ht hfam => absurd hfam (hnone t ht))
      · exact h
  | redeem req sessions draw now =>
      simp only [RefreshTokens.apply]
      have hredeemed := redeem_redeemed hash tokens req sessions draw now
      generalize (redeem hash tokens req sessions draw now).1 = tokens' at hredeemed ⊢
      cases hredeemed with
      | unchanged => exact h
      | revoked familyId => exact h.revokeWhere _ now
      | rotated t hmem htenant hclient hlive =>
          rw [← htenant]
          exact h.rotate hmem hclient hlive
  | revoke tenantId clientId presented now =>
      simp only [RefreshTokens.apply, revoke]
      split
      · exact h
      · split_ifs
        · exact h.revokeWhere _ now
        · exact h
  | revokeForUser tenantId userId clientId now => exact h.revokeWhere _ now
  | revokeForSession tenantId sessionId now => exact h.revokeWhere _ now

/-- What is lasting and holds of all tokens holds after every operation, if it holds of what that
issues. -/
lemma Lasting.apply (hP : Lasting P) (h : ∀ t ∈ tokens, P t)
    (hissue : ∀ tenantId req familyId draw now, op = .issue tenantId req familyId draw now →
      P (newRow hash tenantId familyId req (now + req.ttl) draw now)) :
    ∀ t ∈ RefreshTokens.apply hash tokens op, P t := by
  cases op with
  | issue tenantId req familyId draw now =>
      rw [RefreshTokens.apply]
      split
      · next tokens' issued hinsert =>
          rw [insertIn_ok hinsert]
          intro row hrow
          rw [List.mem_append, List.mem_singleton] at hrow
          rcases hrow with hrow | rfl
          · exact h row hrow
          · exact hissue tenantId req familyId draw now rfl
      · exact h
  | redeem req sessions draw now => exact hP.redeem h hash req sessions draw now
  | revoke tenantId clientId presented now =>
      rw [RefreshTokens.apply, revoke]
      split
      · exact h
      · split_ifs
        · exact hP.map (ages_revokeIf _ now) h
        · exact h
  | revokeForUser tenantId userId clientId now => exact hP.map (ages_revokeIf _ now) h
  | revokeForSession tenantId sessionId now => exact hP.map (ages_revokeIf _ now) h

/-- **Token families.**  In every state reached by any sequence of operations, every family has at
most one token that is neither consumed nor revoked, and all its tokens agree on the grant: client,
user, session, scopes, audiences, authentication context, organization, `act`, DPoP and certificate
binding, and expiry. -/
theorem families_sound (hash : String → Digest) {ops : List Op} {tokens : Table}
    (hfresh : (table hash).Meets FamilyFresh [] ops) (hrun : (table hash).run [] ops = some tokens) :
    (∀ tenantId familyId, (liveOf tokens tenantId familyId).length ≤ 1) ∧
    ∀ t ∈ tokens, ∀ t' ∈ tokens, t.SameFamily t' → t.grant = t'.grant := by
  have hinv : Inv tokens := by
    refine Machine.run_inv ?_ hfresh hrun ⟨by simp, List.Pairwise.nil⟩
    intro s op s' hs hC hstep
    simp only [table, Option.some.injEq] at hstep
    rw [← hstep]
    exact hs.apply hC
  exact ⟨hinv.liveOf_le_one, hinv.agree⟩

/-! ## A family in use -/

def sha256 (token : String) : Digest :=
  if token = "rt_first" then
    [80, 242, 202, 53, 121, 148, 83, 66, 211, 95, 213, 213, 21, 78, 41, 35, 117, 117, 148, 176,
    193, 134, 56, 39, 79, 3, 99, 132, 202, 189, 16, 11]
  else if token = "rt_second" then
    [211, 202, 70, 218, 115, 146, 89, 27, 25, 24, 91, 15, 127, 54, 247, 252, 110, 42, 26, 215,
    63, 239, 150, 149, 28, 219, 140, 111, 8, 203, 27, 152]
  else
    [91, 79, 52, 79, 197, 207, 146, 46, 106, 57, 242, 135, 61, 145, 224, 16, 159, 216, 108, 189,
    250, 145, 7, 43, 151, 194, 157, 149, 178, 194, 74, 53]

def signIn : IssueRequest where
  clientId := "app"
  userId := some 3
  sessionId := none
  scopes := ["openid", "offline_access"]
  audiences := []
  ttl := seconds 3600
  dpopJkt := none
  mtlsX5t := none
  authTime := some 0
  amr := ["pwd"]
  acr := none
  orgId := none
  act := none

def refresh (presented : String) : RedeemRequest where
  tenantId := 1
  clientId := "app"
  presented := presented
  proof := ⟨none, none⟩
  resources := []
  scopes := none
  rotate := true

def noneEnded : Sessions := ⟨fun _ => false, fun _ => true⟩

def refreshed : List Op :=
  [.issue 1 signIn 7 ⟨10, "rt_first"⟩ (seconds 0),
    .redeem (refresh "rt_first") noneEnded ⟨11, "rt_second"⟩ (seconds 60)]

/-- After a refresh the family has two tokens, one of them live, with one grant. -/
theorem families_sound_refreshed :
    ∃ tokens, (table sha256).run [] refreshed = some tokens ∧ tokens.length = 2 ∧
      (liveOf tokens 1 7).length = 1 ∧
      (∀ tenantId familyId, (liveOf tokens tenantId familyId).length ≤ 1) ∧
      ∀ t ∈ tokens, ∀ t' ∈ tokens, t.SameFamily t' → t.grant = t'.grant := by
  refine ⟨_, rfl, rfl, rfl, ?_⟩
  have hfresh : (table sha256).Meets FamilyFresh [] refreshed := by decide
  exact families_sound sha256 hfresh rfl

end Ridm.RefreshTokens
