import Ridm.Lib.Transaction
import Ridm.RefreshTokens.Families
import Ridm.RefreshTokens.Transactions

/-!
# What a redemption leaves behind

`redeem` statement by statement: it reads and writes in a transaction that it commits on three of its ways
out, and each statement, and the session service it asks, may fail.

* `perform_redeemTx` — where nothing fails, this is `redeem`.
* `redeemTx_outcome` — what is stored after each way out, and what was checked before a token is handed out.
-/

namespace Ridm.RefreshTokens

/-! ## The transaction -/

/-- The statements of `redeem`, and the session service. -/
inductive Statement
  | start | find | revoke | session | consume | insert | commit

/-- Which statements fail, and how. -/
abbrev Faults := Statement → Option AppError

/-- A statement, which may fail. -/
def perhaps (faults : Faults) (s : Statement) : Tx Table OAuthError Unit :=
  Tx.attempt ((faults s).map OAuthError.ofAppError)

/-- A family revoked, before the request is refused. -/
def revokeThenRefuse (faults : Faults) (req : RedeemRequest) (current : RefreshToken) (dbNow : Instant)
    (e : OAuthError) : Tx Table OAuthError Issued := do
  perhaps faults .revoke
  Tx.write (revokeFamily req.tenantId current.familyId dbNow)
  perhaps faults .commit
  Tx.commit
  throw e

/-- The end of `redeem`, all checks passed. -/
def exchangeTx (hash : String → Digest) (faults : Faults) (req : RedeemRequest) (current : RefreshToken)
    (draw : Draw) (now dbNow : Instant) : Tx Table OAuthError Issued :=
  if !req.rotate then do
    perhaps faults .commit
    Tx.commit
    pure ⟨req.presented, current⟩
  else do
    perhaps faults .consume
    Tx.write (markConsumed req.tenantId current.id dbNow)
    perhaps faults .insert
    let tokens ← Tx.read
    match insertIn hash tokens req.tenantId current.familyId (successorRequest req.clientId current)
        current.expiresAt draw now with
    | .error e => throw (OAuthError.ofAppError e)
    | .ok (tokens', issued) => do
        Tx.write fun _ => tokens'
        perhaps faults .commit
        Tx.commit
        pure issued

/-- `redeem` from the row it found and locked on. -/
def redeemFoundTx (hash : String → Digest) (faults : Faults) (req : RedeemRequest) (sessions : Sessions)
    (draw : Draw) (now dbNow : Instant) (current : RefreshToken) : Tx Table OAuthError Issued :=
  if current.clientId ≠ req.clientId then
    throw ⟨.invalidGrant, "refresh token was not issued to this client"⟩
  else if current.consumedAt.isSome then revokeThenRefuse faults req current dbNow reuseDetected
  else if current.revokedAt.isSome then throw ⟨.invalidGrant, "refresh token revoked"⟩
  else
    match checkRequest req current now with
    | some e => throw e
    | none => do
        Tx.attempt (current.sessionId.bind fun _ => (faults .session).map OAuthError.ofAppError)
        if sessionEnded sessions current then revokeThenRefuse faults req current dbNow sessionOver
        else exchangeTx hash faults req current draw now dbNow

/-- `redeem`; `now` is the clock of the service, `dbNow` that of the database. -/
def redeemTx (hash : String → Digest) (faults : Faults) (req : RedeemRequest) (sessions : Sessions)
    (draw : Draw) (now dbNow : Instant) : Tx Table OAuthError Issued :=
  if !PREFIX.toList.isPrefixOf req.presented.toList || req.presented.utf8ByteSize > 256 then
    throw ⟨.invalidGrant, "invalid refresh token"⟩
  else do
    perhaps faults .start
    perhaps faults .find
    let tokens ← Tx.read
    match findByHash tokens req.tenantId (hash req.presented) with
    | none => throw ⟨.invalidGrant, "invalid refresh token"⟩
    | some current => redeemFoundTx hash faults req sessions draw now dbNow current

/-! ## The outcome -/

/-- The row was presented by its owner, is live and not expired, its bindings are the proof's, and what is
requested is in its grant. -/
structure Redeemable (req : RedeemRequest) (now : Instant) (t : RefreshToken) : Prop where
  client : t.clientId = req.clientId
  unconsumed : t.consumedAt = none
  unrevoked : t.revokedAt = none
  unexpired : now < t.expiresAt
  dpop : ∀ jkt, t.dpopJkt = some jkt → req.proof.jkt = some jkt
  certificate : ∀ x5t, t.mtlsX5t = some x5t → req.proof.x5t = some x5t
  resources : ∀ r ∈ req.resources, r ∈ t.audiences
  scopes : ∀ s ∈ req.scopes.getD [], s ∈ t.scopes

/-- A row after the unrevoked rows of a family gained `revoked_at`. -/
def gainRevoked (tenantId familyId : Uuid) (dbNow : Instant) (r : RefreshToken) : RefreshToken :=
  if r.tenantId = tenantId ∧ r.familyId = familyId ∧ r.revokedAt = none then { r with revokedAt := some dbNow }
  else r

/-- How a redemption may end. -/
def Outcome (hash : String → Digest) (tokens : Table) (req : RedeemRequest) (now dbNow : Instant)
    (stored : Table) : Except OAuthError Issued → Prop
  | .ok _ => ∃ t, findByHash tokens req.tenantId (hash req.presented) = some t ∧ Redeemable req now t
  | .error e =>
      if e = reuseDetected ∨ e = sessionOver then
        ∃ t, findByHash tokens req.tenantId (hash req.presented) = some t ∧
          stored = tokens.map (gainRevoked req.tenantId t.familyId dbNow)
      else stored = tokens

variable {hash : String → Digest} {faults : Faults} {tokens : Table} {req : RedeemRequest}
  {sessions : Sessions} {draw : Draw} {now dbNow : Instant} {t : RefreshToken}

variable {e : OAuthError} {w : Work Table}

lemma ne_of_code (h : e.error ≠ .invalidGrant) : e ≠ reuseDetected ∧ e ≠ sessionOver := by
  constructor
  · rintro rfl
    exact h rfl
  · rintro rfl
    exact h rfl

lemma ofAppError_ne (e : AppError) : OAuthError.ofAppError e ≠ reuseDetected ∧
    OAuthError.ofAppError e ≠ sessionOver := by
  refine ne_of_code ?_
  cases e <;> exact fun h => OAuthErrorCode.noConfusion h

lemma checkRequest_ne (h : checkRequest req t now = some e) :
    e ≠ reuseDetected ∧ e ≠ sessionOver := by
  simp only [checkRequest] at h
  split_ifs at h
  · cases h
    decide
  · cases h
    decide
  · cases h
    decide
  · split at h
    · cases h
      exact ne_of_code fun h => OAuthErrorCode.noConfusion h
    · split at h
      · cases h
        exact ne_of_code fun h => OAuthErrorCode.noConfusion h
      · cases h

lemma revokeFamily_eq (tenantId familyId : Uuid) (dbNow : Instant) (tokens : Table) :
    revokeFamily tenantId familyId dbNow tokens = tokens.map (gainRevoked tenantId familyId dbNow) := by
  refine List.map_congr_left fun r _ => ?_
  simp only [revokeIf, gainRevoked, inFamily, Bool.and_eq_true, beq_iff_eq, Option.isNone_iff_eq_none, and_assoc]

lemma redeemable_of_check (hclient : t.clientId = req.clientId) (hconsumed : t.consumedAt = none)
    (hrevoked : t.revokedAt = none) (hcheck : checkRequest req t now = none) : Redeemable req now t := by
  simp only [checkRequest] at hcheck
  split_ifs at hcheck with hexpired hdpop hcertificate
  have hbound : ∀ {bound shown : Option String}, ¬ (bound.isSome = true ∧ shown ≠ bound) →
      ∀ k, bound = some k → shown = some k := by
    rintro _ shown h k rfl
    by_contra hne
    exact h ⟨rfl, hne⟩
  split at hcheck
  · cases hcheck
  next hresources =>
    split at hcheck
    · cases hcheck
    next hscopes =>
      refine ⟨hclient, hconsumed, hrevoked, not_le.mp hexpired, hbound hdpop, hbound hcertificate, ?_, ?_⟩
      · intro r hr
        simpa using List.find?_eq_none.mp hresources r hr
      · intro s hs
        simpa using List.find?_eq_none.mp hscopes s hs

/-- An end as it may be, from the table as it was. -/
abbrev EndsWell (hash : String → Digest) (tokens : Table) (req : RedeemRequest) (now dbNow : Instant)
    (w : Work Table) (m : Tx Table OAuthError Issued) : Prop :=
  Tx.Ends w m fun w' r => Outcome hash tokens req now dbNow w'.stored r

lemma outcome_error (hw : w.stored = tokens)
    (he : e ≠ reuseDetected ∧ e ≠ sessionOver) : Outcome hash tokens req now dbNow w.stored (.error e) := by
  rw [Outcome, if_neg (not_or.mpr he)]
  exact hw

lemma endsWell_throw (hw : w.stored = tokens)
    (he : e ≠ reuseDetected ∧ e ≠ sessionOver) : EndsWell hash tokens req now dbNow w (throw e) :=
  (Tx.ends_throw e).mpr (outcome_error hw he)

lemma endsWell_perhaps (hw : w.stored = tokens) (s : Statement)
    {f : Unit → Tx Table OAuthError Issued} (hf : EndsWell hash tokens req now dbNow w (f ())) :
    EndsWell hash tokens req now dbNow w (perhaps faults s >>= f) := by
  refine (Tx.ends_attempt _ f).mpr ⟨fun e he => ?_, fun _ => hf⟩
  obtain ⟨err, -, rfl⟩ := Option.map_eq_some_iff.mp he
  exact outcome_error hw (ofAppError_ne err)

lemma endsWell_revoke (hfound : findByHash tokens req.tenantId (hash req.presented) = some t)
    (he : e = reuseDetected ∨ e = sessionOver) :
    EndsWell hash tokens req now dbNow ⟨tokens, tokens⟩ (revokeThenRefuse faults req t dbNow e) := by
  refine endsWell_perhaps rfl .revoke ?_
  refine (Tx.ends_write _ _).mpr ?_
  refine endsWell_perhaps rfl .commit ?_
  refine (Tx.ends_commit _).mpr ((Tx.ends_throw e).mpr ?_)
  rw [Outcome, if_pos he]
  exact ⟨t, hfound, revokeFamily_eq _ _ _ _⟩

lemma endsWell_exchange (hfound : findByHash tokens req.tenantId (hash req.presented) = some t)
    (hredeemable : Redeemable req now t) :
    EndsWell hash tokens req now dbNow ⟨tokens, tokens⟩ (exchangeTx hash faults req t draw now dbNow) := by
  rw [exchangeTx]
  split_ifs
  · refine endsWell_perhaps rfl .commit ?_
    exact (Tx.ends_commit _).mpr ((Tx.ends_pure _).mpr ⟨t, hfound, hredeemable⟩)
  · refine endsWell_perhaps rfl .consume ?_
    refine (Tx.ends_write _ _).mpr ?_
    refine endsWell_perhaps rfl .insert ?_
    refine (Tx.ends_read _).mpr ?_
    split
    · exact endsWell_throw rfl (ofAppError_ne _)
    · refine (Tx.ends_write _ _).mpr ?_
      refine endsWell_perhaps rfl .commit ?_
      exact (Tx.ends_commit _).mpr ((Tx.ends_pure _).mpr ⟨t, hfound, hredeemable⟩)

lemma endsWell_found (hfound : findByHash tokens req.tenantId (hash req.presented) = some t) :
    EndsWell hash tokens req now dbNow ⟨tokens, tokens⟩
      (redeemFoundTx hash faults req sessions draw now dbNow t) := by
  rw [redeemFoundTx]
  by_cases hclient : t.clientId = req.clientId
  swap
  · rw [if_pos hclient]
    exact endsWell_throw rfl (by decide)
  rw [if_neg (not_not.mpr hclient)]
  by_cases hconsumed : t.consumedAt.isSome = true
  · rw [if_pos hconsumed]
    exact endsWell_revoke hfound (.inl rfl)
  rw [if_neg hconsumed]
  by_cases hrevoked : t.revokedAt.isSome = true
  · rw [if_pos hrevoked]
    exact endsWell_throw rfl (by decide)
  rw [if_neg hrevoked]
  split
  · next e hcheck => exact endsWell_throw rfl (checkRequest_ne hcheck)
  · next hcheck =>
      refine (Tx.ends_attempt _ _).mpr ⟨fun e he => ?_, fun _ => ?_⟩
      · obtain ⟨-, -, he⟩ := Option.bind_eq_some_iff.mp he
        obtain ⟨err, -, rfl⟩ := Option.map_eq_some_iff.mp he
        exact outcome_error rfl (ofAppError_ne err)
      · split_ifs
        · exact endsWell_revoke hfound (.inr rfl)
        · refine endsWell_exchange hfound (redeemable_of_check hclient ?_ ?_ hcheck)
          · simpa using hconsumed
          · simpa using hrevoked

/-- **What a redemption leaves behind.**  Whatever fails and however it ends: with an error other than the
two for a reused token and for an ended session the table is as it was; with those, exactly the unrevoked
rows of the family of the presented token have gained `revoked_at`; and a token is handed out only for a row
that its client presented, neither consumed nor revoked nor expired, with the proof's bindings, and for
resources and scopes of its grant. -/
theorem redeemTx_outcome (hash : String → Digest) (faults : Faults) (tokens : Table) (req : RedeemRequest)
    (sessions : Sessions) (draw : Draw) (now dbNow : Instant) :
    Outcome hash tokens req now dbNow
      ((redeemTx hash faults req sessions draw now dbNow).perform tokens).1
      ((redeemTx hash faults req sessions draw now dbNow).perform tokens).2 := by
  refine Tx.perform_of_ends ?_
  rw [redeemTx]
  split_ifs
  · exact endsWell_throw rfl (by decide)
  · refine endsWell_perhaps rfl .start ?_
    refine endsWell_perhaps rfl .find ?_
    refine (Tx.ends_read _).mpr ?_
    split
    · exact endsWell_throw rfl (by decide)
    · next t hfound => exact endsWell_found hfound

/-! ## Without faults -/

/-- Nothing fails. -/
def noFaults : Faults := fun _ => none

lemma perhaps_noFaults (s : Statement) : perhaps noFaults s = pure () := rfl

/-- What a transaction leaves stored, and its answer. -/
abbrev EndsAs (w : Work Table) (m : Tx Table OAuthError Issued) (out : Table × Except OAuthError Issued) : Prop :=
  Tx.Ends w m fun w' r => (w'.stored, r) = out

lemma revokeThenRefuse_noFaults (e : OAuthError) :
    EndsAs ⟨tokens, tokens⟩ (revokeThenRefuse noFaults req t now e)
      (revokeFamily req.tenantId t.familyId now tokens, .error e) := by
  rw [revokeThenRefuse, perhaps_noFaults, perhaps_noFaults, pure_bind, pure_bind]
  exact (Tx.ends_write _ _).mpr ((Tx.ends_commit _).mpr rfl)

lemma exchangeTx_noFaults :
    EndsAs ⟨tokens, tokens⟩ (exchangeTx hash noFaults req t draw now now)
      (exchange hash tokens req t draw now) := by
  rw [exchangeTx, exchange]
  split_ifs
  · rw [perhaps_noFaults, pure_bind]
    exact (Tx.ends_commit _).mpr rfl
  · rw [perhaps_noFaults, perhaps_noFaults, perhaps_noFaults, pure_bind]
    refine (Tx.ends_write _ _).mpr ?_
    rw [pure_bind]
    refine (Tx.ends_read _).mpr ?_
    rw [insertIn]
    dsimp only
    split_ifs
    · rfl
    · refine (Tx.ends_write _ _).mpr ?_
      rw [pure_bind]
      exact (Tx.ends_commit _).mpr rfl

lemma redeemFoundTx_noFaults :
    EndsAs ⟨tokens, tokens⟩ (redeemFoundTx hash noFaults req sessions draw now now t)
      (redeemFound hash tokens req sessions draw now t) := by
  have hsession : (Tx.attempt (t.sessionId.bind fun _ => (noFaults .session).map OAuthError.ofAppError) :
      Tx Table OAuthError Unit) = pure () := by
    cases t.sessionId <;> rfl
  rw [redeemFoundTx, redeemFound, hsession]
  by_cases hclient : t.clientId = req.clientId
  swap
  · rw [if_pos hclient, if_pos hclient]
    rfl
  rw [if_neg (not_not.mpr hclient), if_neg (not_not.mpr hclient)]
  by_cases hconsumed : t.consumedAt.isSome = true
  · rw [if_pos hconsumed, if_pos hconsumed]
    exact revokeThenRefuse_noFaults _
  rw [if_neg hconsumed, if_neg hconsumed]
  by_cases hrevoked : t.revokedAt.isSome = true
  · rw [if_pos hrevoked, if_pos hrevoked]
    rfl
  rw [if_neg hrevoked, if_neg hrevoked]
  cases checkRequest req t now with
  | some e => rfl
  | none =>
      dsimp only
      rw [pure_bind]
      split_ifs
      · exact revokeThenRefuse_noFaults _
      · exact exchangeTx_noFaults

/-- **Where nothing fails, the transaction is `redeem`.** -/
theorem perform_redeemTx (hash : String → Digest) (tokens : Table) (req : RedeemRequest) (sessions : Sessions)
    (draw : Draw) (now : Instant) :
    (redeemTx hash noFaults req sessions draw now now).perform tokens =
      redeem hash tokens req sessions draw now := by
  refine Tx.perform_of_ends (Q := fun s r => (s, r) = redeem hash tokens req sessions draw now) ?_
  show EndsAs ⟨tokens, tokens⟩ _ _
  rw [redeemTx, redeem]
  split_ifs
  · rfl
  · rw [perhaps_noFaults, perhaps_noFaults, pure_bind, pure_bind]
    refine (Tx.ends_read _).mpr ?_
    cases findByHash tokens req.tenantId (hash req.presented) with
    | none => rfl
    | some t => exact redeemFoundTx_noFaults

end Ridm.RefreshTokens
