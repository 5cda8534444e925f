import Mathlib.Data.Fintype.Basic
import Ridm.Oidc.Grants

/-!
# Replayed authorization codes

`authorization_code` of `api/src/oidc/token.rs` as any number of concurrent calls that redeem **one**
code, split into their atomic steps.  `GETDEL` of the code lets one call through.  That call issues an
access token, inserts the refresh family and at last stores the `code_family` record of both, for ten
minutes.  Every other call misses the code, takes that record with `GETDEL`, revokes the family and
denies the `jti`.

A call that misses looks for the record once, and does nothing when it is not there yet.
`replayed_code_undone_iff` is the exact condition, over every interleaving, under which what the code
produced is of no use at a later moment; `replay_undoes_nothing` is an interleaving of two calls
after which all of it is.

The calls here are those with the parameters of a redemption; errors of the storages are not
modelled.  A call that fails after its access token is signed hands out nothing.
-/

namespace Ridm.CodeReplay

open RefreshTokens (Issued RefreshToken SenderProof Table)
open TokenEndpoint
open Tokens (Denylist IssuedToken Tenant Verifier jtiOf uuidText)

/-- A redemption: its parameters, and what it reads and draws. -/
structure Redemption where
  backend : Backend
  client : Client
  params : RawParams
  proof : SenderProof
  req : CodeRequest
  draws : Draws

/-- What the calls share: the clock, the two keys of the code, the table and the denylist. -/
structure Store where
  now : Instant
  code : Slot AuthCode
  codeFamily : Slot CodeGrant
  tokens : Table
  denied : Denylist

/-- The value `GETDEL` gives: a key whose lifetime is over is not there. -/
def live {α : Type} (k : Slot α) (now : Instant) : Option α := if k.lapsed now then none else k.get

/-- Where a redemption stands. -/
inductive Pc
  | start
  | checking (record : AuthCode)
  | storing (i : Issue) (token : IssuedToken)
  | recording (token : IssuedToken) (refresh : Option Issued)
  | issued (token : IssuedToken) (refresh : Option Issued)
  | lookingUp
  | revoking (grant : CodeGrant)
  | denying (grant : CodeGrant)
  | undone (grant : CodeGrant)
  | refused

/-- The call has given its answer. -/
def Pc.isFinished : Pc → Bool
  | .issued _ _ | .undone _ | .refused => true
  | _ => false

/-- How long the record of a code is kept. -/
def CODE_FAMILY_TTL_SECS : ℤ := 600

/-- `revoke_family`, when there is one. -/
def revokeGrant (tenantId : Uuid) (grant : CodeGrant) (now : Instant) (tokens : Table) : Table :=
  match grant.familyId with
  | some f => RefreshTokens.revokeFamily tenantId f now tokens
  | none => tokens

/-- `denylist::deny`, when there is a `jti`. -/
def denyGrant (tenantId : Uuid) (grant : CodeGrant) (now : Instant) (denied : Denylist) : Denylist :=
  match grant.accessJti with
  | some jti => Tokens.deny tenantId jti grant.accessExpiresAt now denied
  | none => denied

/-- The checks of a request against the code, and its access token. -/
def check (r : Redemption) (record : AuthCode) (now : Instant) :
    Except OAuthError (Issue × IssuedToken) := do
  let i ← redeemCode r.backend r.client r.params r.proof r.req record now
  issueAccess r.backend i r.draws.jti now

/-- The next atomic step of a redemption. -/
def act (tenantId : Uuid) (r : Redemption) (g : Store) : Pc → Option (Store × Pc)
  | .start =>
      match live g.code g.now with
      | some record => some ({ g with code := none }, .checking record)
      | none => some ({ g with code := none }, .lookingUp)
  | .checking record =>
      match check r record g.now with
      | .ok (i, token) => some (g, .storing i token)
      | .error _ => some (g, .refused)
  | .storing i token =>
      match refreshRequest r.backend i g.now with
      | none => some (g, .recording token none)
      | some req =>
          match RefreshTokens.issue r.backend.hash g.tokens tenantId req r.draws.familyId
              r.draws.refresh g.now with
          | .ok (tokens, issued) => some ({ g with tokens := tokens }, .recording token (some issued))
          | .error _ => some (g, .refused)
  | .recording token refresh =>
      let ends := g.now + seconds CODE_FAMILY_TTL_SECS
      some ({ g with codeFamily := Slot.setUntil (codeGrant token refresh) ends },
        .issued token refresh)
  | .lookingUp =>
      match live g.codeFamily g.now with
      | some grant => some ({ g with codeFamily := none }, .revoking grant)
      | none => some ({ g with codeFamily := none }, .refused)
  | .revoking grant =>
      some ({ g with tokens := revokeGrant tenantId grant g.now g.tokens }, .denying grant)
  | .denying grant =>
      some ({ g with denied := denyGrant tenantId grant g.now g.denied }, .undone grant)
  | .issued _ _ | .undone _ | .refused => none

/-- The clock moves on. -/
def env (g : Store) (t : Instant) : Option Store :=
  if g.now ≤ t then some { g with now := t } else none

/-- Any number of redemptions of one code. -/
def calls {ι : Type} (tenantId : Uuid) (job : ι → Redemption) : Calls ι Store Pc Unit Instant where
  act i g pc _ := act tenantId (job i) g pc
  env := env

/-! ## What a use of the tokens needs -/

/-- Some token of the family can still be redeemed. -/
def FamilyUsable (tenantId : Uuid) (refresh : Option Issued) (tokens : Table) (t : Instant) : Prop :=
  ∃ r ∈ refresh, ∃ row ∈ tokens,
    RefreshTokens.inFamily tenantId r.record.familyId row = true ∧ row.isLive = true ∧ t < row.expiresAt

/-- The access token is accepted. -/
def AccessUsable (V : Verifier) (tenant : Tenant) (token : IssuedToken) (denied : Denylist)
    (t : Instant) : Prop :=
  ∃ claims, Tokens.verifyAccess V tenant {} t token.token denied = .ok claims

/-- All checks of the access token pass, the denylist aside. -/
def Passes (V : Verifier) (tenant : Tenant) (token : IssuedToken) (t : Instant) : Prop :=
  ∃ claims, Tokens.checkAccess V tenant {} t token.token = .ok claims

variable {ι : Type} [DecidableEq ι]

/-- A redemption that missed the code looks for its record when the one that got the code has answered,
and so has stored it. -/
def LooksAfter (w : Pool ι Store Pc) : Pick ι Unit Instant → Prop
  | .call i _ => w.calls i = .lookingUp ∧ ∃ j token refresh, w.calls j = .issued token refresh
  | .env _ => False

/-- A redemption denies the `jti` it found for longer than until `t`. -/
def DeniesPast (t : Instant) (w : Pool ι Store Pc) : Pick ι Unit Instant → Prop
  | .call i _ => ∃ grant, w.calls i = .denying grant ∧
      t < w.shared.now + seconds (numSeconds (grant.accessExpiresAt - w.shared.now))
  | .env _ => False

def Pc.isIssued : Pc → Bool
  | .issued _ _ => true
  | _ => false

lemma Pc.isIssued_iff {pc : Pc} : pc.isIssued = true ↔ ∃ token refresh, pc = .issued token refresh := by
  cases pc <;> simp [Pc.isIssued]

instance [Fintype ι] (w : Pool ι Store Pc) : DecidablePred (LooksAfter w)
  | .env _ => .isFalse id
  | .call i _ =>
      match h : w.calls i with
      | .lookingUp => decidable_of_iff (∃ j, (w.calls j).isIssued = true)
          (by simp only [LooksAfter, h, Pc.isIssued_iff, true_and])
      | .start | .checking _ | .storing _ _ | .recording _ _ | .issued _ _ | .revoking _ | .denying _
      | .undone _ | .refused => .isFalse (by simp [LooksAfter, h])

instance (t : Instant) (w : Pool ι Store Pc) : DecidablePred (DeniesPast t w)
  | .env _ => .isFalse id
  | .call i _ =>
      match h : w.calls i with
      | .denying grant => decidable_of_iff
          (t < w.shared.now + seconds (numSeconds (grant.accessExpiresAt - w.shared.now)))
          (by simp [DeniesPast, h])
      | .start | .checking _ | .storing _ _ | .recording _ _ | .issued _ _ | .lookingUp | .revoking _
      | .undone _ | .refused => .isFalse (by simp [DeniesPast, h])

/-- Nobody has redeemed the code, and what the redemptions draw is new. -/
structure Untouched (tenantId : Uuid) (job : ι → Redemption) (w : Pool ι Store Pc) : Prop where
  calls : ∀ i, w.calls i = .start
  codeFamily : w.shared.codeFamily = none
  newFamily : ∀ i, ∀ row ∈ w.shared.tokens,
    RefreshTokens.inFamily tenantId (job i).draws.familyId row = false
  newJti : ∀ i, w.shared.denied (tenantId, uuidText (job i).draws.jti) = none

/-! ## The phases of a code -/

/-- The call has taken nothing. -/
def Pc.isQuiet : Pc → Bool
  | .start | .lookingUp | .refused => true
  | _ => false

/-- The call has found what the code produced. -/
def Pc.hasFound : Pc → Bool
  | .revoking _ | .denying _ | .undone _ => true
  | _ => false

/-- The call has the code, and has left nothing behind yet. -/
def Ahead (r : Redemption) : Pc → Prop
  | .checking _ => True
  | .storing _ token => jtiOf token.claims = some (uuidText r.draws.jti)
  | _ => False

/-- What the redemption `r` produces. -/
structure Produced (tenantId : Uuid) (r : Redemption) (token : IssuedToken)
    (refresh : Option Issued) : Prop where
  jti : jtiOf token.claims = some (uuidText r.draws.jti)
  row : ∀ x ∈ refresh, x.record.tenantId = tenantId ∧ x.record.familyId = r.draws.familyId ∧
    x.record.isLive = true

/-- The table with the row of the family. -/
def withRefresh (refresh : Option Issued) (tokens : Table) : Table :=
  tokens ++ refresh.toList.map Issued.record

/-- How far the call that found the record has come. -/
def Undoing (tenantId : Uuid) (g₀ : Store) (token : IssuedToken) (refresh : Option Issued) (g : Store) :
    Pc → Prop
  | .revoking grant => grant = codeGrant token refresh ∧ g.denied = g₀.denied ∧
      g.tokens = withRefresh refresh g₀.tokens
  | .denying grant => grant = codeGrant token refresh ∧ g.denied = g₀.denied ∧
      ∃ t, g.tokens = revokeGrant tenantId grant t (withRefresh refresh g₀.tokens)
  | .undone grant => grant = codeGrant token refresh ∧
      ∃ t, g.tokens = revokeGrant tenantId grant t (withRefresh refresh g₀.tokens)
  | _ => False

/-- **The phases.**  Nothing is left behind yet; the family is there, and not the record; both are; some
call has taken the record. -/
inductive Phase (tenantId : Uuid) (job : ι → Redemption) (g₀ : Store) (w : Pool ι Store Pc) : Prop
  | before (htokens : w.shared.tokens = g₀.tokens) (hrecord : w.shared.codeFamily = none)
      (hdenied : w.shared.denied = g₀.denied)
      (hcalls : ∀ i, (w.calls i).isQuiet = true ∨ Ahead (job i) (w.calls i))
      (hone : ∀ i, (w.calls i).isQuiet = false → w.shared.code = none ∧
        ∀ j, j ≠ i → (w.calls j).isQuiet = true)
  | recording (j : ι) (token : IssuedToken) (refresh : Option Issued)
      (hproduced : Produced tenantId (job j) token refresh)
      (hj : w.calls j = .recording token refresh) (hcode : w.shared.code = none)
      (hquiet : ∀ k, k ≠ j → (w.calls k).isQuiet = true)
      (hrecord : w.shared.codeFamily = none) (hdenied : w.shared.denied = g₀.denied)
      (htokens : w.shared.tokens = withRefresh refresh g₀.tokens)
  | stored (j : ι) (token : IssuedToken) (refresh : Option Issued) (d : Instant)
      (hproduced : Produced tenantId (job j) token refresh)
      (hj : w.calls j = .issued token refresh) (hcode : w.shared.code = none)
      (hquiet : ∀ k, k ≠ j → (w.calls k).isQuiet = true)
      (hrecord : w.shared.codeFamily = some ⟨codeGrant token refresh, some d⟩)
      (hd : g₀.now + seconds CODE_FAMILY_TTL_SECS ≤ d) (hdenied : w.shared.denied = g₀.denied)
      (htokens : w.shared.tokens = withRefresh refresh g₀.tokens)
  | taken (j i : ι) (token : IssuedToken) (refresh : Option Issued) (hne : i ≠ j)
      (hproduced : Produced tenantId (job j) token refresh)
      (hj : w.calls j = .issued token refresh) (hcode : w.shared.code = none)
      (hquiet : ∀ k, k ≠ j → k ≠ i → (w.calls k).isQuiet = true)
      (hrecord : w.shared.codeFamily = none)
      (hi : Undoing tenantId g₀ token refresh w.shared (w.calls i))

/-- What a call that has taken nothing does: it takes the code, takes the record, or still has nothing. -/
inductive QuietStep (g : Store) : Pc → Store → Pc → Prop
  | takesCode {record : AuthCode} (h : live g.code g.now = some record) :
      QuietStep g .start { g with code := none } (.checking record)
  | missesCode : QuietStep g .start { g with code := none } .lookingUp
  | takesRecord {grant : CodeGrant} (h : live g.codeFamily g.now = some grant) :
      QuietStep g .lookingUp { g with codeFamily := none } (.revoking grant)
  | missesRecord (h : live g.codeFamily g.now = none) :
      QuietStep g .lookingUp { g with codeFamily := none } .refused

variable {r : Redemption} {token : IssuedToken} {refresh : Option Issued}

lemma quietStep_of_act {tenantId : Uuid} {g g' : Store} {pc pc' : Pc}
    (hquiet : pc.isQuiet = true) (h : act tenantId r g pc = some (g', pc')) :
    QuietStep g pc g' pc' := by
  cases pc with
  | start =>
      cases hlive : live g.code g.now with
      | none =>
          simp only [act, hlive, Option.some.injEq, Prod.mk.injEq] at h
          obtain ⟨rfl, rfl⟩ := h
          exact .missesCode
      | some record =>
          simp only [act, hlive, Option.some.injEq, Prod.mk.injEq] at h
          obtain ⟨rfl, rfl⟩ := h
          exact .takesCode hlive
  | lookingUp =>
      cases hlive : live g.codeFamily g.now with
      | none =>
          simp only [act, hlive, Option.some.injEq, Prod.mk.injEq] at h
          obtain ⟨rfl, rfl⟩ := h
          exact .missesRecord hlive
      | some grant =>
          simp only [act, hlive, Option.some.injEq, Prod.mk.injEq] at h
          obtain ⟨rfl, rfl⟩ := h
          exact .takesRecord hlive
  | refused => cases h
  | checking _ | storing _ _ | recording _ _ | issued _ _ | revoking _ | denying _ | undone _ =>
      cases hquiet

/-- What the call with the code does: it is refused, or comes closer to leaving the family behind. -/
inductive AheadStep (tenantId : Uuid) (r : Redemption) (g : Store) : Store → Pc → Prop
  | refused : AheadStep tenantId r g g .refused
  | storing (i : Issue) (token : IssuedToken)
      (h : jtiOf token.claims = some (uuidText r.draws.jti)) : AheadStep tenantId r g g (.storing i token)
  | recording (token : IssuedToken) (refresh : Option Issued) (h : Produced tenantId r token refresh) :
      AheadStep tenantId r g { g with tokens := withRefresh refresh g.tokens } (.recording token refresh)

lemma check_ok {record : AuthCode} {now : Instant} {i : Issue}
    (h : check r record now = .ok (i, token)) : jtiOf token.claims = some (uuidText r.draws.jti) := by
  obtain ⟨i', -, haccess⟩ := bind_eq_ok.mp h
  rw [(Tokens.issueAccessToken_ok (issueAccess_ok haccess).2).1, Tokens.jtiOf_accessClaims]

variable {g' : Store} {tokens : Table} {pc₀ : Pc} {w' : Pool ι Store Pc}

lemma issue_ok {hash : String → RefreshTokens.Digest} {tenantId familyId : Uuid}
    {req : RefreshTokens.IssueRequest} {draw : RefreshTokens.Draw} {now : Instant}
    {result : Table × Issued}
    (h : RefreshTokens.issue hash tokens tenantId req familyId draw now = .ok result) :
    result.1 = withRefresh (some result.2) tokens ∧ result.2.record.tenantId = tenantId ∧
      result.2.record.familyId = familyId ∧ result.2.record.isLive = true := by
  rw [RefreshTokens.issue, RefreshTokens.insertIn] at h
  split at h
  · cases h
  · cases h
    exact ⟨rfl, rfl, rfl, rfl⟩

lemma aheadStep_of_act {tenantId : Uuid} {g g' : Store} {pc pc' : Pc}
    (hahead : Ahead r pc) (h : act tenantId r g pc = some (g', pc')) :
    AheadStep tenantId r g g' pc' := by
  cases pc with
  | checking record =>
      cases hcheck : check r record g.now with
      | error e =>
          simp only [act, hcheck, Option.some.injEq, Prod.mk.injEq] at h
          obtain ⟨rfl, rfl⟩ := h
          exact .refused
      | ok result =>
          simp only [act, hcheck, Option.some.injEq, Prod.mk.injEq] at h
          obtain ⟨rfl, rfl⟩ := h
          exact .storing _ _ (check_ok hcheck)
  | storing i token =>
      cases hreq : refreshRequest r.backend i g.now with
      | none =>
          simp only [act, hreq, Option.some.injEq, Prod.mk.injEq] at h
          obtain ⟨rfl, rfl⟩ := h
          have hstep : AheadStep tenantId r g { g with tokens := withRefresh none g.tokens } _ :=
            .recording token none ⟨hahead, fun x hx => absurd hx (Option.not_mem_none x)⟩
          rwa [withRefresh, Option.toList_none, List.map_nil, List.append_nil] at hstep
      | some req =>
          cases hissue : RefreshTokens.issue r.backend.hash g.tokens tenantId req r.draws.familyId
              r.draws.refresh g.now with
          | error e =>
              simp only [act, hreq, hissue, Option.some.injEq, Prod.mk.injEq] at h
              obtain ⟨rfl, rfl⟩ := h
              exact .refused
          | ok result =>
              simp only [act, hreq, hissue, Option.some.injEq, Prod.mk.injEq] at h
              obtain ⟨rfl, rfl⟩ := h
              obtain ⟨htokens, hrow⟩ := issue_ok hissue
              rw [htokens]
              refine .recording token (some result.2) ⟨hahead, fun x hx => ?_⟩
              obtain rfl := Option.mem_some_iff.mp hx
              exact hrow
  | start | lookingUp | refused | recording _ _ | issued _ _ | revoking _ | denying _ | undone _ =>
      cases hahead

/-! ## One step keeps to the phases -/

section Steps

variable {tenantId : Uuid} {job : ι → Redemption} {g₀ g : Store} {w : Pool ι Store Pc} {i : ι} {pc : Pc}

@[simp] lemma live_none {α : Type} (now : Instant) : live (none : Slot α) now = none := by
  simp [live]

lemma Undoing.hasFound (h : Undoing tenantId g₀ token refresh g pc) : pc.hasFound = true := by
  cases pc with
  | revoking _ | denying _ | undone _ => rfl
  | _ => cases h

lemma Undoing.not_quiet (h : Undoing tenantId g₀ token refresh g pc) : pc.isQuiet = false := by
  cases pc with
  | revoking _ | denying _ | undone _ => rfl
  | _ => cases h

lemma Undoing.congr (h : Undoing tenantId g₀ token refresh g pc) (htokens : g'.tokens = g.tokens)
    (hdenied : g'.denied = g.denied) : Undoing tenantId g₀ token refresh g' pc := by
  cases pc with
  | revoking _ | denying _ | undone _ => simpa only [Undoing, htokens, hdenied] using h
  | _ => cases h

lemma live_stored {grant : CodeGrant} {d now : Instant} (h : now < d) :
    live (some ⟨grant, some d⟩) now = some grant := by
  simp [live, Slot.lapsed, h]

lemma quiet_next (hpc : pc.isQuiet = true) {k : ι} (hk : (w.calls k).isQuiet = true) :
    ((w.next i g pc).calls k).isQuiet = true := by
  by_cases hki : k = i
  · rwa [hki, Pool.next_self]
  · rwa [Pool.next_of_ne w hki]

omit [DecidableEq ι] in
lemma ne_of_not_quiet {j : ι} (hi : (w.calls i).isQuiet = true) (hj : (w.calls j).isQuiet = false) :
    j ≠ i := by
  rintro rfl
  rw [hi] at hj
  cases hj

lemma Phase.quiet (h : Phase tenantId job g₀ w) (hi : (w.calls i).isQuiet = true)
    (hpc : pc.isQuiet = true) (htokens : g.tokens = w.shared.tokens)
    (hdenied : g.denied = w.shared.denied) (hrecord : g.codeFamily = w.shared.codeFamily)
    (hcode : w.shared.code = none → g.code = none) : Phase tenantId job g₀ (w.next i g pc) := by
  cases h with
  | before htokens₀ hrecord₀ hdenied₀ hcalls hone =>
      refine .before (htokens.trans htokens₀) (hrecord.trans hrecord₀) (hdenied.trans hdenied₀)
        (fun k => ?_) (fun k hk => ?_)
      · by_cases hki : k = i
        · rw [hki, Pool.next_self]
          exact .inl hpc
        · rw [Pool.next_of_ne w hki]
          exact hcalls k
      · have hki : k ≠ i := by
          rintro rfl
          rw [Pool.next_self, hpc] at hk
          cases hk
        rw [Pool.next_of_ne w hki] at hk
        exact ⟨hcode (hone k hk).1, fun j hj => quiet_next hpc ((hone k hk).2 j hj)⟩
  | recording j token refresh hproduced hj hcode₀ hquiet hrecord₀ hdenied₀ htokens₀ =>
      have hji : j ≠ i := ne_of_not_quiet hi (by rw [hj]; rfl)
      refine .recording j token refresh hproduced ?_ (hcode hcode₀)
        (fun k hk => quiet_next hpc (hquiet k hk)) (hrecord.trans hrecord₀) (hdenied.trans hdenied₀)
        (htokens.trans htokens₀)
      rwa [Pool.next_of_ne w hji]
  | stored j token refresh d hproduced hj hcode₀ hquiet hrecord₀ hd hdenied₀ htokens₀ =>
      have hji : j ≠ i := ne_of_not_quiet hi (by rw [hj]; rfl)
      refine .stored j token refresh d hproduced ?_ (hcode hcode₀)
        (fun k hk => quiet_next hpc (hquiet k hk)) (hrecord.trans hrecord₀) hd (hdenied.trans hdenied₀)
        (htokens.trans htokens₀)
      rwa [Pool.next_of_ne w hji]
  | taken j f token refresh hne hproduced hj hcode₀ hquiet hrecord₀ hf =>
      have hji : j ≠ i := ne_of_not_quiet hi (by rw [hj]; rfl)
      have hfi : f ≠ i := ne_of_not_quiet hi hf.not_quiet
      refine .taken j f token refresh hne hproduced ?_ (hcode hcode₀)
        (fun k hkj hkf => quiet_next hpc (hquiet k hkj hkf)) (hrecord.trans hrecord₀) ?_
      · rwa [Pool.next_of_ne w hji]
      · rw [Pool.next_of_ne w hfi]
        exact hf.congr htokens hdenied

lemma Phase.quiet_step (h : Phase tenantId job g₀ w)
    (hten : w.shared.now < g₀.now + seconds CODE_FAMILY_TTL_SECS) (hi : (w.calls i).isQuiet = true)
    (hstep : QuietStep w.shared (w.calls i) g pc) : Phase tenantId job g₀ (w.next i g pc) := by
  generalize hwi : w.calls i = pc₀ at hstep
  cases hstep with
  | missesCode => exact h.quiet hi rfl rfl rfl rfl fun _ => rfl
  | missesRecord hlive =>
      refine h.quiet hi rfl rfl rfl ?_ id
      cases h with
      | before _ hrecord _ _ _ => exact hrecord.symm
      | recording _ _ _ _ _ _ _ hrecord _ _ => exact hrecord.symm
      | taken _ _ _ _ _ _ _ _ _ hrecord _ => exact hrecord.symm
      | stored j token refresh d _ _ _ _ hrecord hd _ _ =>
          rw [hrecord, live_stored (hten.trans_le hd)] at hlive
          cases hlive
  | takesCode hlive =>
      cases h with
      | before htokens hrecord hdenied hcalls hone =>
          have hall : ∀ k, (w.calls k).isQuiet = true := by
            intro k
            by_contra hk
            rw [(hone k (by simpa using hk)).1, live_none] at hlive
            cases hlive
          refine .before htokens hrecord hdenied (fun k => ?_) (fun k hk => ⟨rfl, fun j hj => ?_⟩)
          · by_cases hki : k = i
            · rw [hki, Pool.next_self]
              exact .inr trivial
            · rw [Pool.next_of_ne w hki]
              exact hcalls k
          · have hki : k = i := by
              by_contra hki
              rw [Pool.next_of_ne w hki, hall k] at hk
              cases hk
            rw [Pool.next_of_ne w (hki ▸ hj)]
            exact hall j
      | recording _ _ _ _ _ hcode _ _ _ _ =>
          rw [hcode, live_none] at hlive
          cases hlive
      | stored _ _ _ _ _ _ hcode _ _ _ _ _ =>
          rw [hcode, live_none] at hlive
          cases hlive
      | taken _ _ _ _ _ _ _ hcode _ _ _ =>
          rw [hcode, live_none] at hlive
          cases hlive
  | takesRecord hlive =>
      cases h with
      | before _ hrecord _ _ _ =>
          rw [hrecord, live_none] at hlive
          cases hlive
      | recording _ _ _ _ _ _ _ hrecord _ _ =>
          rw [hrecord, live_none] at hlive
          cases hlive
      | taken _ _ _ _ _ _ _ _ _ hrecord _ =>
          rw [hrecord, live_none] at hlive
          cases hlive
      | stored j token refresh d hproduced hj hcode hquiet hrecord hd hdenied htokens =>
          have hji : j ≠ i := ne_of_not_quiet hi (by rw [hj]; rfl)
          rw [hrecord, live_stored (hten.trans_le hd), Option.some.injEq] at hlive
          refine .taken j i token refresh hji.symm hproduced ?_ hcode (fun k hkj hki => ?_) rfl ?_
          · rwa [Pool.next_of_ne w hji]
          · rw [Pool.next_of_ne w hki]
            exact hquiet k hkj
          · rw [Pool.next_self]
            exact ⟨hlive.symm, hdenied, htokens⟩

lemma Phase.ahead_step (htokens : w.shared.tokens = g₀.tokens) (hrecord : w.shared.codeFamily = none)
    (hdenied : w.shared.denied = g₀.denied) (hcode : w.shared.code = none)
    (hothers : ∀ k, k ≠ i → (w.calls k).isQuiet = true)
    (hstep : AheadStep tenantId (job i) w.shared g pc) : Phase tenantId job g₀ (w.next i g pc) := by
  cases hstep with
  | refused =>
      have hall : ∀ k, ((w.next i w.shared .refused).calls k).isQuiet = true := by
        intro k
        by_cases hki : k = i
        · rw [hki, Pool.next_self]
          rfl
        · rw [Pool.next_of_ne w hki]
          exact hothers k hki
      refine .before htokens hrecord hdenied (fun k => .inl (hall k)) fun k hk => ?_
      rw [hall k] at hk
      cases hk
  | storing issue token hjti =>
      refine .before htokens hrecord hdenied (fun k => ?_) (fun k hk => ⟨hcode, fun j hj => ?_⟩)
      · by_cases hki : k = i
        · rw [hki, Pool.next_self]
          exact .inr hjti
        · rw [Pool.next_of_ne w hki]
          exact .inl (hothers k hki)
      · have hki : k = i := by
          by_contra hki
          rw [Pool.next_of_ne w hki, hothers k hki] at hk
          cases hk
        rw [Pool.next_of_ne w (hki ▸ hj)]
        exact hothers j (hki ▸ hj)
  | recording token refresh hproduced =>
      refine .recording i token refresh hproduced (Pool.next_self ..) hcode (fun k hk => ?_) hrecord
        hdenied (congrArg (withRefresh refresh) htokens)
      rw [Pool.next_of_ne w hk]
      exact hothers k hk

lemma Undoing.step (h : Undoing tenantId g₀ token refresh g pc₀)
    (hstep : act tenantId r g pc₀ = some (g', pc)) :
    Undoing tenantId g₀ token refresh g' pc ∧ g'.code = g.code ∧ g'.codeFamily = g.codeFamily := by
  cases pc₀ with
  | revoking grant =>
      cases hstep
      obtain ⟨rfl, hdenied, htokens⟩ := h
      have hrevoked := congrArg (revokeGrant tenantId (codeGrant token refresh) g.now) htokens
      exact ⟨⟨rfl, hdenied, g.now, hrevoked⟩, rfl, rfl⟩
  | denying grant =>
      cases hstep
      obtain ⟨rfl, -, htokens⟩ := h
      exact ⟨⟨rfl, htokens⟩, rfl, rfl⟩
  | undone grant => cases hstep
  | _ => cases h

lemma Phase.busy_step (h : Phase tenantId job g₀ w) (hclock : g₀.now ≤ w.shared.now)
    (hi : (w.calls i).isQuiet = false)
    (hstep : act tenantId (job i) w.shared (w.calls i) = some (g, pc)) :
    Phase tenantId job g₀ (w.next i g pc) := by
  cases h with
  | before htokens hrecord hdenied hcalls hone =>
      have hahead := (hcalls i).resolve_left (by simp [hi])
      exact Phase.ahead_step htokens hrecord hdenied (hone i hi).1 (hone i hi).2
        (aheadStep_of_act hahead hstep)
  | recording j token refresh hproduced hj hcode hquiet hrecord hdenied htokens =>
      obtain rfl : i = j := by
        by_contra hij
        rw [hquiet i hij] at hi
        cases hi
      rw [hj] at hstep
      cases hstep
      refine .stored i token refresh _ hproduced (Pool.next_self ..) hcode (fun k hk => ?_) rfl
        (Int.add_le_add_right hclock _) hdenied htokens
      rw [Pool.next_of_ne w hk]
      exact hquiet k hk
  | stored j token refresh d hproduced hj hcode hquiet hrecord hd hdenied htokens =>
      obtain rfl : i = j := by
        by_contra hij
        rw [hquiet i hij] at hi
        cases hi
      rw [hj] at hstep
      cases hstep
  | taken j f token refresh hne hproduced hj hcode hquiet hrecord hf =>
      have hij : i ≠ j := by
        rintro rfl
        rw [hj] at hstep
        cases hstep
      obtain rfl : i = f := by
        by_contra hif
        rw [hquiet i hij hif] at hi
        cases hi
      obtain ⟨hundoing, hcode', hrecord'⟩ := hf.step hstep
      refine .taken j i token refresh hne hproduced ?_ (hcode'.trans hcode) (fun k hkj hki => ?_)
        (hrecord'.trans hrecord) ?_
      · rwa [Pool.next_of_ne w hij.symm]
      · rw [Pool.next_of_ne w hki]
        exact hquiet k hkj hki
      · rwa [Pool.next_self]

/-- **The phases are kept** by every step of a redemption within ten minutes. -/
lemma Phase.call_step (h : Phase tenantId job g₀ w) (hclock : g₀.now ≤ w.shared.now)
    (hten : w.shared.now < g₀.now + seconds CODE_FAMILY_TTL_SECS)
    (hstep : act tenantId (job i) w.shared (w.calls i) = some (g, pc)) :
    Phase tenantId job g₀ (w.next i g pc) := by
  cases hi : (w.calls i).isQuiet with
  | true => exact h.quiet_step hten hi (quietStep_of_act hi hstep)
  | false => exact h.busy_step hclock hi hstep

omit [DecidableEq ι] in
lemma Phase.env_step (h : Phase tenantId job g₀ w) (t : Instant) :
    Phase tenantId job g₀ ⟨{ w.shared with now := t }, w.calls⟩ := by
  cases h with
  | before htokens hrecord hdenied hcalls hone => exact .before htokens hrecord hdenied hcalls hone
  | recording j token refresh hproduced hj hcode hquiet hrecord hdenied htokens =>
      exact .recording j token refresh hproduced hj hcode hquiet hrecord hdenied htokens
  | stored j token refresh d hproduced hj hcode hquiet hrecord hd hdenied htokens =>
      exact .stored j token refresh d hproduced hj hcode hquiet hrecord hd hdenied htokens
  | taken j f token refresh hne hproduced hj hcode hquiet hrecord hf =>
      exact .taken j f token refresh hne hproduced hj hcode hquiet hrecord (hf.congr rfl rfl)

/-! ## What comes about -/

/-- Some call has found what the code produced. -/
def SomeFound (w : Pool ι Store Pc) : Prop := ∃ i, (w.calls i).hasFound = true

/-- Some call has denied the `jti` it found for longer than until `t`. -/
def SomeDenied (tenantId : Uuid) (t : Instant) (w : Pool ι Store Pc) : Prop :=
  ∃ i grant, w.calls i = .undone grant ∧
    ∃ jti ∈ grant.accessJti, Tokens.isDenied tenantId jti t w.shared.denied = true

lemma Pc.hasFound_of_quiet (h : pc.isQuiet = true) : pc.hasFound = false := by
  cases pc with
  | start | lookingUp | refused => rfl
  | _ => cases h

lemma Ahead.not_found (h : Ahead r pc) : pc.hasFound = false := by
  cases pc with
  | checking _ | storing _ _ => rfl
  | _ => cases h

lemma hasFound_act (hstep : act tenantId r g pc₀ = some (g', pc)) :
    pc.hasFound = true ↔
      pc₀.hasFound = true ∨ pc₀ = .lookingUp ∧ (live g.codeFamily g.now).isSome = true := by
  cases pc₀ with
  | start =>
      simp only [act] at hstep
      split at hstep <;> cases hstep <;> simp [Pc.hasFound]
  | checking record =>
      simp only [act] at hstep
      split at hstep <;> cases hstep <;> simp [Pc.hasFound]
  | storing i token =>
      simp only [act] at hstep
      split at hstep
      · cases hstep
        simp [Pc.hasFound]
      · split at hstep <;> cases hstep <;> simp [Pc.hasFound]
  | lookingUp =>
      simp only [act] at hstep
      split at hstep
      · next grant hlive =>
          cases hstep
          simp [Pc.hasFound, hlive]
      · next hlive =>
          cases hstep
          simp [Pc.hasFound, hlive]
  | recording _ _ | revoking _ | denying _ =>
      cases hstep
      simp [Pc.hasFound]
  | issued _ _ | undone _ | refused => cases hstep

omit [DecidableEq ι] in
/-- The record is there for a call that looks for it exactly when the call with the code has stored it
and nobody has taken it. -/
lemma Phase.live_iff (h : Phase tenantId job g₀ w)
    (hten : w.shared.now < g₀.now + seconds CODE_FAMILY_TTL_SECS) :
    (live w.shared.codeFamily w.shared.now).isSome = true ↔
      (∃ j token refresh, w.calls j = .issued token refresh) ∧ ¬ SomeFound w := by
  cases h with
  | before htokens hrecord hdenied hcalls hone =>
      rw [hrecord, live_none]
      refine iff_of_false (by simp) ?_
      rintro ⟨⟨j, token, refresh, hj⟩, -⟩
      have := hcalls j
      rw [hj] at this
      rcases this with h | h <;> cases h
  | recording j token refresh hproduced hj hcode hquiet hrecord hdenied htokens =>
      rw [hrecord, live_none]
      refine iff_of_false (by simp) ?_
      rintro ⟨⟨k, token', refresh', hk⟩, -⟩
      have hkj : k = j := by
        by_contra hkj
        have := hquiet k hkj
        rw [hk] at this
        cases this
      rw [hkj, hj] at hk
      cases hk
  | stored j token refresh d hproduced hj hcode hquiet hrecord hd hdenied htokens =>
      rw [hrecord, live_stored (hten.trans_le hd)]
      refine iff_of_true rfl ⟨⟨j, token, refresh, hj⟩, ?_⟩
      rintro ⟨k, hk⟩
      by_cases hkj : k = j
      · rw [hkj, hj] at hk
        cases hk
      · rw [Pc.hasFound_of_quiet (hquiet k hkj)] at hk
        cases hk
  | taken j f token refresh hne hproduced hj hcode hquiet hrecord hf =>
      rw [hrecord, live_none]
      exact iff_of_false (by simp) fun h => h.2 ⟨f, hf.hasFound⟩

/-- **Who finds the record.**  By a step of a redemption something comes to be found exactly when the call
looks for the record after it has been stored. -/
lemma Phase.someFound_act (h : Phase tenantId job g₀ w)
    (hten : w.shared.now < g₀.now + seconds CODE_FAMILY_TTL_SECS)
    (hstep : act tenantId (job i) w.shared (w.calls i) = some (g, pc)) :
    SomeFound (w.next i g pc) ↔ SomeFound w ∨ LooksAfter w (.call i ()) := by
  have hlive := h.live_iff hten
  have hfound := hasFound_act hstep
  constructor
  · rintro ⟨k, hk⟩
    by_cases hki : k = i
    · rw [hki, Pool.next_self, hfound] at hk
      rcases hk with hk | ⟨hlooking, hthere⟩
      · exact .inl ⟨i, hk⟩
      · exact .inr ⟨hlooking, (hlive.mp hthere).1⟩
    · rw [Pool.next_of_ne w hki] at hk
      exact .inl ⟨k, hk⟩
  · intro hbefore
    by_cases hold : SomeFound w
    · obtain ⟨k, hk⟩ := hold
      refine ⟨k, ?_⟩
      by_cases hki : k = i
      · rw [hki] at hk
        rw [hki, Pool.next_self, hfound]
        exact .inl hk
      · rwa [Pool.next_of_ne w hki]
    · obtain ⟨hlooking, hissued⟩ := hbefore.resolve_left hold
      refine ⟨i, ?_⟩
      rw [Pool.next_self, hfound]
      exact .inr ⟨hlooking, hlive.mpr ⟨hissued, hold⟩⟩

lemma denied_act (hne : ∀ grant, pc₀ ≠ .denying grant)
    (hstep : act tenantId r g pc₀ = some (g', pc)) :
    g'.denied = g.denied ∧ ∀ grant, pc₀ ≠ .undone grant ∧ pc ≠ .undone grant := by
  cases pc₀ with
  | start | checking _ | lookingUp =>
      simp only [act] at hstep
      split at hstep <;> cases hstep <;> exact ⟨rfl, fun _ => ⟨nofun, nofun⟩⟩
  | storing i token =>
      simp only [act] at hstep
      split at hstep
      · cases hstep
        exact ⟨rfl, fun _ => ⟨nofun, nofun⟩⟩
      · split at hstep <;> cases hstep <;> exact ⟨rfl, fun _ => ⟨nofun, nofun⟩⟩
  | recording _ _ | revoking _ =>
      cases hstep
      exact ⟨rfl, fun _ => ⟨nofun, nofun⟩⟩
  | denying grant => exact absurd rfl (hne grant)
  | issued _ _ | undone _ | refused => cases hstep

omit [DecidableEq ι] in
lemma Phase.of_denying {grant : CodeGrant} (h : Phase tenantId job g₀ w) (hi : w.calls i = .denying grant) :
    w.shared.denied = g₀.denied ∧ (∃ j, grant.accessJti = some (uuidText (job j).draws.jti)) ∧
      ∀ k grant', w.calls k ≠ .undone grant' := by
  have hfound : (w.calls i).hasFound = true := by
    rw [hi]
    rfl
  cases h with
  | before htokens hrecord hdenied hcalls hone =>
      rcases hcalls i with hq | ha
      · rw [Pc.hasFound_of_quiet hq] at hfound
        cases hfound
      · rw [ha.not_found] at hfound
        cases hfound
  | recording j token refresh hproduced hj hcode hquiet hrecord hdenied htokens =>
      by_cases hij : i = j
      · rw [hij, hj] at hi
        cases hi
      · rw [Pc.hasFound_of_quiet (hquiet i hij)] at hfound
        cases hfound
  | stored j token refresh d hproduced hj hcode hquiet hrecord hd hdenied htokens =>
      by_cases hij : i = j
      · rw [hij, hj] at hi
        cases hi
      · rw [Pc.hasFound_of_quiet (hquiet i hij)] at hfound
        cases hfound
  | taken j f token refresh hne hproduced hj hcode hquiet hrecord hf =>
      have hij : i ≠ j := by
        rintro rfl
        rw [hj] at hi
        cases hi
      have hif : i = f := by
        by_contra hif
        rw [Pc.hasFound_of_quiet (hquiet i hij hif)] at hfound
        cases hfound
      rw [← hif, hi] at hf
      obtain ⟨rfl, hdenied, -⟩ := hf
      refine ⟨hdenied, ⟨j, hproduced.jti⟩, fun k grant' hk => ?_⟩
      by_cases hkj : k = j
      · rw [hkj, hj] at hk
        cases hk
      · by_cases hkf : k = f
        · rw [hkf, ← hif, hi] at hk
          cases hk
        · have := hquiet k hkj hkf
          rw [hk] at this
          cases this

/-- **How long the access token is denied.**  By a step of a redemption the `jti` comes to be denied for
longer than until `t` exactly when the call denies it for so long. -/
lemma Phase.someDenied_act (h : Phase tenantId job g₀ w)
    (hnew : ∀ j, g₀.denied (tenantId, uuidText (job j).draws.jti) = none) {t : Instant}
    (ht : w.shared.now ≤ t) (hstep : act tenantId (job i) w.shared (w.calls i) = some (g, pc)) :
    SomeDenied tenantId t (w.next i g pc) ↔ SomeDenied tenantId t w ∨ DeniesPast t w (.call i ()) := by
  by_cases hdenying : ∃ grant, w.calls i = .denying grant
  · obtain ⟨grant, hi⟩ := hdenying
    obtain ⟨hdenied, ⟨j, hjti⟩, hundone⟩ := h.of_denying hi
    rw [hi] at hstep
    cases hstep
    have hfree : Tokens.isDenied tenantId (uuidText (job j).draws.jti) w.shared.now w.shared.denied =
        false := by
      rw [hdenied, Tokens.isDenied, Marks.isThere, hnew j]
      rfl
    have hlater : Tokens.isDenied tenantId (uuidText (job j).draws.jti) t
        (denyGrant tenantId grant w.shared.now w.shared.denied) =
        decide (t < w.shared.now + seconds (numSeconds (grant.accessExpiresAt - w.shared.now))) := by
      simp only [denyGrant, hjti]
      exact Tokens.isDenied_deny ht hfree
    constructor
    · rintro ⟨k, grant', hk, jti, hmem, hthere⟩
      by_cases hki : k = i
      · rw [hki, Pool.next_self] at hk
        cases hk
        rw [hjti, Option.mem_some_iff] at hmem
        rw [← hmem, Pool.next_shared, hlater, decide_eq_true_eq] at hthere
        exact .inr ⟨grant, hi, hthere⟩
      · rw [Pool.next_of_ne w hki] at hk
        exact absurd hk (hundone k grant')
    · rintro (⟨k, grant', hk, -⟩ | ⟨grant', hi', hpast⟩)
      · exact absurd hk (hundone k grant')
      · rw [hi] at hi'
        cases hi'
        refine ⟨i, grant, Pool.next_self .., _, hjti, ?_⟩
        rw [Pool.next_shared, hlater, decide_eq_true_eq]
        exact hpast
  · have hne : ∀ grant, w.calls i ≠ .denying grant := fun grant hi => hdenying ⟨grant, hi⟩
    obtain ⟨hdenied, hundone⟩ := denied_act hne hstep
    have hpast : ¬ DeniesPast t w (.call i ()) := by
      rintro ⟨grant, hi, -⟩
      exact hne grant hi
    rw [or_iff_left hpast]
    constructor
    · rintro ⟨k, grant, hk, hjti⟩
      rw [Pool.next_shared, hdenied] at hjti
      by_cases hki : k = i
      · rw [hki, Pool.next_self] at hk
        exact absurd hk (hundone grant).2
      · rw [Pool.next_of_ne w hki] at hk
        exact ⟨k, grant, hk, hjti⟩
    · rintro ⟨k, grant, hk, hjti⟩
      have hki : k ≠ i := by
        rintro rfl
        exact (hundone grant).1 hk
      refine ⟨k, grant, by rwa [Pool.next_of_ne w hki], ?_⟩
      rwa [Pool.next_shared, hdenied]

lemma now_act (hstep : act tenantId r g pc₀ = some (g', pc)) :
    g'.now = g.now := by
  cases pc₀ with
  | start | checking _ | lookingUp =>
      simp only [act] at hstep
      split at hstep <;> cases hstep <;> rfl
  | storing i token =>
      simp only [act] at hstep
      split at hstep
      · cases hstep
        rfl
      · split at hstep <;> cases hstep <;> rfl
  | recording _ _ | revoking _ | denying _ =>
      cases hstep
      rfl
  | issued _ _ | undone _ | refused => cases hstep

lemma now_le_step {a : Pick ι Unit Instant}
    (hstep : (calls tenantId job).machine.step w a = some w') : w.shared.now ≤ w'.shared.now := by
  cases a with
  | call i k =>
      obtain ⟨g, pc, hact, rfl⟩ := Calls.step_call.mp hstep
      exact (now_act hact).ge
  | env t =>
      obtain ⟨g, henv, rfl⟩ := Calls.step_env.mp hstep
      simp only [calls, env] at henv
      split_ifs at henv with hle
      cases henv
      exact hle

lemma Phase.system_step {a : Pick ι Unit Instant} {G : Pool ι Store Pc → Prop}
    {C : Pool ι Store Pc → Pick ι Unit Instant → Prop} (h : Phase tenantId job g₀ w)
    (hclock : g₀.now ≤ w.shared.now) (hten : w.shared.now < g₀.now + seconds CODE_FAMILY_TTL_SECS)
    (hcall : ∀ {i g pc}, act tenantId (job i) w.shared (w.calls i) = some (g, pc) →
      (G (w.next i g pc) ↔ G w ∨ C w (.call i ()))) (henv : ∀ t, (G ⟨{ w.shared with now := t }, w.calls⟩ ↔ G w ∨ C w (.env t)))
    (hstep : (calls tenantId job).machine.step w a = some w') :
    (Phase tenantId job g₀ w' ∧ g₀.now ≤ w'.shared.now) ∧ (G w' ↔ G w ∨ C w a) := by
  have hclock' := hclock.trans (now_le_step hstep)
  cases a with
  | call i k =>
      obtain ⟨g, pc, hact, rfl⟩ := Calls.step_call.mp hstep
      exact ⟨⟨h.call_step hclock hten hact, hclock'⟩, hcall hact⟩
  | env t =>
      obtain ⟨g, hg, rfl⟩ := Calls.step_env.mp hstep
      simp only [calls, env] at hg
      split_ifs at hg with hle
      cases hg
      exact ⟨⟨h.env_step t, hclock'⟩, henv t⟩

end Steps

/-! ## Once all redemptions have finished -/

section Finished

variable {tenantId : Uuid} {job : ι → Redemption} {g₀ : Store} {w : Pool ι Store Pc} {j : ι}
  {token : IssuedToken} {refresh : Option Issued} {t : Instant}

omit [DecidableEq ι] in
/-- Nobody has found the record, and all is as it was issued; or somebody has, and the family is
revoked. -/
lemma Phase.finished (h : Phase tenantId job g₀ w) (hdone : ∀ i, (w.calls i).isFinished = true)
    (hj : w.calls j = .issued token refresh) : Produced tenantId (job j) token refresh ∧
      ((¬ SomeFound w ∧ w.shared.denied = g₀.denied ∧
          w.shared.tokens = withRefresh refresh g₀.tokens) ∨
        ((∃ f, w.calls f = .undone (codeGrant token refresh)) ∧
          (∀ k grant, w.calls k = .undone grant → grant = codeGrant token refresh) ∧
          ∃ s, w.shared.tokens =
            revokeGrant tenantId (codeGrant token refresh) s (withRefresh refresh g₀.tokens))) := by
  have hbusy : (w.calls j).isQuiet = false := by
    rw [hj]
    rfl
  cases h with
  | before htokens hrecord hdenied hcalls hone =>
      have hahead := (hcalls j).resolve_left (by simp [hbusy])
      rw [hj] at hahead
      cases hahead
  | recording j' token' refresh' hproduced hj' hcode hquiet hrecord hdenied htokens =>
      have := hdone j'
      rw [hj'] at this
      cases this
  | stored j' token' refresh' d hproduced hj' hcode hquiet hrecord hd hdenied htokens =>
      obtain rfl : j = j' := by
        by_contra hne
        rw [hquiet j hne] at hbusy
        cases hbusy
      rw [hj] at hj'
      cases hj'
      refine ⟨hproduced, .inl ⟨?_, hdenied, htokens⟩⟩
      rintro ⟨k, hk⟩
      by_cases hkj : k = j
      · rw [hkj, hj] at hk
        cases hk
      · rw [Pc.hasFound_of_quiet (hquiet k hkj)] at hk
        cases hk
  | taken j' f token' refresh' hne hproduced hj' hcode hquiet hrecord hf =>
      have hfj : f ≠ j := by
        rintro rfl
        rw [hj] at hf
        cases hf
      obtain rfl : j = j' := by
        by_contra hjj'
        rw [hquiet j hjj' hfj.symm] at hbusy
        cases hbusy
      rw [hj] at hj'
      cases hj'
      -- the call that found the record has finished, so it has come to its end
      have hfdone := hdone f
      cases hpc : w.calls f with
      | undone grant =>
          rw [hpc] at hf
          obtain ⟨rfl, htokens⟩ := hf
          refine ⟨hproduced, .inr ⟨⟨f, hpc⟩, fun k grant hk => ?_, htokens⟩⟩
          by_cases hkf : k = f
          · rw [hkf, hpc] at hk
            cases hk
            rfl
          · by_cases hkj : k = j
            · rw [hkj, hj] at hk
              cases hk
            · have := hquiet k hkj hkf
              rw [hk] at this
              cases this
      | revoking grant | denying grant =>
          rw [hpc] at hfdone
          cases hfdone
      | _ =>
          rw [hpc] at hf
          cases hf

lemma familyUsable_withRefresh
    (hnew : ∀ row ∈ tokens, RefreshTokens.inFamily tenantId r.draws.familyId row = false)
    (h : Produced tenantId r token refresh) :
    FamilyUsable tenantId refresh (withRefresh refresh tokens) t ↔
      ∃ x ∈ refresh, t < x.record.expiresAt := by
  constructor
  · rintro ⟨x, hx, row, hrow, hfamily, -, ht⟩
    refine ⟨x, hx, ?_⟩
    obtain rfl := Option.mem_def.mp hx
    rw [withRefresh, Option.toList_some, List.map_singleton, List.mem_append,
      List.mem_singleton] at hrow
    rcases hrow with hrow | rfl
    · rw [(h.row x hx).2.1, hnew row hrow] at hfamily
      cases hfamily
    · exact ht
  · rintro ⟨x, hx, ht⟩
    obtain ⟨htenant, -, hlive⟩ := h.row x hx
    obtain rfl := Option.mem_def.mp hx
    exact ⟨x, hx, x.record, by simp [withRefresh], RefreshTokens.inFamily_iff.mpr ⟨htenant, rfl⟩,
      hlive, ht⟩

lemma not_familyUsable_revoked {s : Instant} :
    ¬ FamilyUsable tenantId refresh
      (revokeGrant tenantId (codeGrant token refresh) s tokens) t := by
  rintro ⟨r, hr, row, hrow, hfamily, hlive, -⟩
  obtain rfl := Option.mem_def.mp hr
  simp only [revokeGrant, codeGrant, Option.map_some, RefreshTokens.revokeFamily,
    RefreshTokens.revokeWhere] at hrow
  obtain ⟨row', -, rfl⟩ := List.mem_map.mp hrow
  have hages := RefreshTokens.ages_revokeIf (RefreshTokens.inFamily tenantId r.record.familyId) s row'
  rw [RefreshTokens.inFamily_iff, hages.tenantId, hages.familyId, ← RefreshTokens.inFamily_iff] at hfamily
  have hnone := (RefreshTokens.isLive_iff.mp (hages.live hlive)).2
  rw [RefreshTokens.revokeIf, hfamily, hnone] at hlive
  simp [RefreshTokens.RefreshToken.isLive] at hlive

omit [DecidableEq ι] in
lemma Phase.familyUsable_iff (h : Phase tenantId job g₀ w)
    (hdone : ∀ i, (w.calls i).isFinished = true) (hj : w.calls j = .issued token refresh)
    (hnew : ∀ row ∈ g₀.tokens, RefreshTokens.inFamily tenantId (job j).draws.familyId row = false) :
    ¬ FamilyUsable tenantId refresh w.shared.tokens t ↔
      SomeFound w ∨ ∀ r ∈ refresh, r.record.expiresAt ≤ t := by
  obtain ⟨hproduced, ⟨hfound, -, htokens⟩ | ⟨⟨f, hf⟩, -, s, htokens⟩⟩ := h.finished hdone hj
  · rw [htokens, familyUsable_withRefresh hnew hproduced, or_iff_right hfound]
    simp only [not_exists, not_and, not_lt]
  · rw [htokens]
    refine iff_of_true not_familyUsable_revoked (.inl ⟨f, ?_⟩)
    rw [hf]
    rfl

omit [DecidableEq ι] in
lemma Phase.accessUsable_iff (h : Phase tenantId job g₀ w) {tenant : Tenant}
    (htenant : tenant.id = tenantId) {V : Verifier} (hdone : ∀ i, (w.calls i).isFinished = true)
    (hj : w.calls j = .issued token refresh)
    (hnew : g₀.denied (tenantId, uuidText (job j).draws.jti) = none)
    (hV : ∀ claims, Tokens.checkAccess V tenant {} t token.token = .ok claims → claims = token.claims) :
    AccessUsable V tenant token w.shared.denied t ↔
      Passes V tenant token t ∧ ¬ SomeDenied tenantId t w := by
  subst htenant
  obtain ⟨hproduced, hcases⟩ := h.finished hdone hj
  have hdenied : Tokens.isDenied tenant.id (uuidText (job j).draws.jti) t w.shared.denied = true ↔
      SomeDenied tenant.id t w := by
    obtain ⟨hfound, hsame, -⟩ | ⟨⟨f, hf⟩, honly, -⟩ := hcases
    · rw [hsame, Tokens.isDenied, Marks.isThere, hnew]
      refine iff_of_false (by simp) ?_
      rintro ⟨k, grant, hk, -⟩
      refine hfound ⟨k, ?_⟩
      rw [hk]
      rfl
    · constructor
      · intro hthere
        exact ⟨f, codeGrant token refresh, hf, _, hproduced.jti, hthere⟩
      · rintro ⟨k, grant, hk, jti, hjti, hthere⟩
        rw [honly k grant hk] at hjti
        obtain rfl := Option.some.inj (hproduced.jti.symm.trans hjti)
        exact hthere
  constructor
  · rintro ⟨claims, hclaims⟩
    obtain ⟨hcheck, hfree⟩ := Tokens.verifyAccess_eq_ok.mp hclaims
    refine ⟨⟨claims, hcheck⟩, fun hsome => ?_⟩
    have := hfree rfl _ (hV claims hcheck ▸ hproduced.jti)
    rw [hdenied.mpr hsome] at this
    cases this
  · rintro ⟨⟨claims, hcheck⟩, hnone⟩
    refine ⟨claims, Tokens.verifyAccess_eq_ok.mpr ⟨hcheck, fun _ jti hjti => ?_⟩⟩
    rw [hV claims hcheck] at hjti
    obtain rfl := Option.some.inj (hproduced.jti.symm.trans hjti)
    rw [← hdenied] at hnone
    simpa using hnone

end Finished

/-- **When a replay undoes what the code produced.**  Over every interleaving of any number of redemptions of
one code within ten minutes: once all of them have finished, nothing of what the code produced is
usable at a later moment `t` exactly when

* the access token passes no other check at `t`, or some redemption denies it for longer than until
  `t`; and
* the refresh family has expired at `t`, or some redemption that missed the code looks for the record
  after the one that got the code has answered. -/
theorem replayed_code_undone_iff (tenant : Tenant) (job : ι → Redemption) (w w' : Pool ι Store Pc)
    (picks : List (Pick ι Unit Instant)) (hstart : Untouched tenant.id job w)
    (hrun : (calls tenant.id job).machine.run w picks = some w')
    (hten : w'.shared.now < w.shared.now + seconds CODE_FAMILY_TTL_SECS)
    (hdone : ∀ i, (w'.calls i).isFinished = true) (j : ι) (token : IssuedToken)
    (refresh : Option Issued) (hj : w'.calls j = .issued token refresh) (t : Instant)
    (ht : w'.shared.now ≤ t) (V : Verifier)
    (hV : ∀ claims, Tokens.checkAccess V tenant {} t token.token = .ok claims → claims = token.claims) :
    (¬ AccessUsable V tenant token w'.shared.denied t ∧
      ¬ FamilyUsable tenant.id refresh w'.shared.tokens t) ↔
      (¬ Passes V tenant token t ∨ (calls tenant.id job).machine.Sometime (DeniesPast t) w picks) ∧
        ((∀ r ∈ refresh, r.record.expiresAt ≤ t) ∨
          (calls tenant.id job).machine.Sometime LooksAfter w picks) := by
  have hback : ∀ {u a u'}, (u'.shared.now < w.shared.now + seconds CODE_FAMILY_TTL_SECS ∧ u'.shared.now ≤ t) →
      (calls tenant.id job).machine.step u a = some u' →
      (u.shared.now < w.shared.now + seconds CODE_FAMILY_TTL_SECS ∧ u.shared.now ≤ t) := by
    intro u a u' hB hstep
    have hle := now_le_step hstep
    exact ⟨hle.trans_lt hB.1, hle.trans hB.2⟩
  have hinit : Phase tenant.id job w.shared w := .before rfl hstart.codeFamily rfl
    (fun i => .inl (by rw [hstart.calls i]; rfl))
    (fun i hi => by
      rw [hstart.calls i] at hi
      cases hi)
  obtain ⟨⟨hphase, -⟩, hfound⟩ := Machine.run_iff_sometime (G := SomeFound) (C := LooksAfter)
    (I := fun u => Phase tenant.id job w.shared u ∧ w.shared.now ≤ u.shared.now) hback
    (fun hI hB hstep => Phase.system_step hI.1 hI.2 hB.1 (fun hact => hI.1.someFound_act hB.1 hact)
      (fun _ => (iff_of_eq (or_false _)).symm) hstep) hrun ⟨hten, ht⟩ ⟨hinit, le_refl _⟩
  obtain ⟨-, hdenied⟩ := Machine.run_iff_sometime (G := SomeDenied tenant.id t) (C := DeniesPast t)
    (I := fun u => Phase tenant.id job w.shared u ∧ w.shared.now ≤ u.shared.now) hback
    (fun hI hB hstep => Phase.system_step hI.1 hI.2 hB.1
      (fun hact => hI.1.someDenied_act hstart.newJti hB.2 hact)
      (fun _ => (iff_of_eq (or_false _)).symm) hstep) hrun ⟨hten, ht⟩ ⟨hinit, le_refl _⟩
  have hnofound : ¬ SomeFound w := by
    rintro ⟨i, hi⟩
    rw [hstart.calls i] at hi
    cases hi
  have hnodenied : ¬ SomeDenied tenant.id t w := by
    rintro ⟨i, grant, hi, -⟩
    rw [hstart.calls i] at hi
    cases hi
  rw [or_iff_right hnofound] at hfound
  rw [or_iff_right hnodenied] at hdenied
  rw [hphase.accessUsable_iff rfl hdone hj (hstart.newJti j) hV,
    hphase.familyUsable_iff hdone hj (hstart.newFamily j), hfound, hdenied, not_and_or, not_not,
    or_comm (a := (calls tenant.id job).machine.Sometime LooksAfter w picks)]

/-! ## Two redemptions of one code -/

def sampleClaims : Members :=
  [("iss", .string "https://id.example/t/acme"), ("sub", .string "00000000-0000-0000-0000-000000000007"),
    ("aud", .string "app"), ("client_id", .string "app"), ("azp", .string "app"),
    ("iat", .number "100"), ("nbf", .number "100"), ("exp", .number "400"),
    ("jti", .string "00000000-0000-0000-0000-000000000020"),
    ("tid", .string "00000000-0000-0000-0000-000000000003"), ("scope", .string ""),
    ("roles", .array []), ("groups", .array []),
    ("sid", .string "00000000-0000-0000-0000-000000000009"), ("auth_time", .number "50")]

def sampleTenant : Tenant := ⟨3, "https://id.example/t/acme"⟩

def sampleJob (again : Bool) : Redemption where
  backend := plainBackend (fun _ => .ok "token") fun _ => sampleClaims
  client :=
    { id := 10
      clientId := "app"
      allowedGrants := ["authorization_code", "refresh_token"]
      allowedScopes := []
      allowedAudiences := [] }
  params := [("code", "c"), ("redirect_uri", "https://app.example/cb")]
  proof := ⟨none, none⟩
  req := ⟨"c", some "https://app.example/cb", none⟩
  draws := if again then ⟨33, 42, ⟨43, "rt_2"⟩⟩ else ⟨32, 40, ⟨41, "rt_1"⟩⟩

def sampleRecord : AuthCode where
  tenantId := 3
  clientId := 10
  userId := 7
  sessionId := 9
  redirectUri := "https://app.example/cb"
  scopes := []
  audiences := []
  codeChallenge := none
  authTime := seconds 50
  amr := []
  acr := none
  orgId := none
  acting := none
  issuedAt := seconds 90

def sampleStart : Pool Bool Store Pc where
  shared := ⟨seconds 100, Slot.setUntil sampleRecord (seconds 150), none, [], Marks.empty⟩
  calls _ := .start

def sampleToken : IssuedToken := ⟨"token", sampleClaims, seconds 400⟩

def sampleRefresh : Issued where
  token := "rt_1"
  record :=
    { id := 41
      tenantId := 3
      familyId := 40
      clientId := "app"
      userId := some 7
      sessionId := some 9
      tokenHash := []
      scopes := []
      audiences := []
      authTime := some (seconds 50)
      amr := []
      acr := none
      orgId := none
      act := none
      expiresAt := seconds 3700
      dpopJkt := none
      mtlsX5t := none
      consumedAt := none
      revokedAt := none
      createdAt := seconds 100 }

def schedule (order : List Bool) : List (Pick Bool Unit Instant) := order.map fun i => .call i ()

def bothDone (w : Pool Bool Store Pc) : Bool :=
  (match w.calls false with
    | .issued token refresh => token == sampleToken && refresh == some sampleRefresh
    | _ => false) && (w.calls true).isFinished && w.shared.now == seconds 100

lemma bothDone_iff {w : Pool Bool Store Pc} : bothDone w = true ↔
    w.calls false = .issued sampleToken (some sampleRefresh) ∧ (w.calls true).isFinished = true ∧
      w.shared.now = seconds 100 := by
  rw [bothDone, Bool.and_eq_true, Bool.and_eq_true, beq_iff_eq, and_assoc]
  refine and_congr_left' ?_
  cases w.calls false <;> simp

lemma finished_of_bothDone {w : Pool Bool Store Pc} (h : bothDone w = true) :
    ∀ i, (w.calls i).isFinished = true := by
  obtain ⟨hfirst, hsecond, -⟩ := bothDone_iff.mp h
  rw [Bool.forall_bool, hfirst]
  exact ⟨rfl, hsecond⟩

lemma untouched_sample : Untouched sampleTenant.id sampleJob sampleStart where
  calls _ := rfl
  codeFamily := rfl
  newFamily _ _ hrow := absurd hrow List.not_mem_nil
  newJti _ := rfl

lemma claims_sample {t : Instant} {claims : Members}
    (h : Tokens.checkAccess (sampleJob false).backend.verifier sampleTenant {} t sampleToken.token =
      .ok claims) : claims = sampleToken.claims := by
  rw [Tokens.checkAccess] at h
  split at h
  · exact Except.ok.inj (Tokens.checkToken_payload h).symm
  · obtain ⟨found, hfound, -⟩ := bind_eq_ok.mp h
    cases orError_eq_ok.mp hfound

/-- A replay after the first call has answered undoes all of it. -/
theorem replayed_code_undone_after : ∃ w', (calls sampleTenant.id sampleJob).machine.run sampleStart
      (schedule [false, false, false, false, true, true, true, true]) = some w' ∧
    w'.calls false = .issued sampleToken (some sampleRefresh) ∧
    ¬ AccessUsable (sampleJob false).backend.verifier sampleTenant sampleToken w'.shared.denied
      (seconds 200) ∧
    ¬ FamilyUsable sampleTenant.id (some sampleRefresh) w'.shared.tokens (seconds 200) := by
  have hrun : ((calls sampleTenant.id sampleJob).machine.run sampleStart
      (schedule [false, false, false, false, true, true, true, true])).any bothDone = true := by
    decide +kernel
  obtain ⟨w', hrun, hdone⟩ := (Option.any_eq_true _ _).mp hrun
  obtain ⟨hfirst, -, hnow⟩ := bothDone_iff.mp hdone
  refine ⟨w', hrun, hfirst, (replayed_code_undone_iff sampleTenant sampleJob sampleStart w' _
    untouched_sample hrun ?_ (finished_of_bothDone hdone) false sampleToken (some sampleRefresh) hfirst
    (seconds 200) ?_ (sampleJob false).backend.verifier fun _ => claims_sample).mpr
    ⟨.inr ?_, .inr ?_⟩⟩
  · rw [hnow]
    decide
  · rw [hnow]
    decide
  · decide +kernel
  · decide +kernel

def allUsable (w : Pool Bool Store Pc) : Bool :=
  (Tokens.verifyAccess (sampleJob false).backend.verifier sampleTenant {} (seconds 200)
    sampleToken.token w.shared.denied).isOk && decide (w.shared.tokens = [sampleRefresh.record])

/-- **A replay that undoes nothing.**  The second call misses the code and looks for the record while the
first is still issuing.  Both finish within ten minutes, and what the code produced stays usable. -/
theorem replay_undoes_nothing : ∃ w', (calls sampleTenant.id sampleJob).machine.run sampleStart
      (schedule [false, true, true, false, false, false]) = some w' ∧
    Untouched sampleTenant.id sampleJob sampleStart ∧
    w'.shared.now < sampleStart.shared.now + seconds CODE_FAMILY_TTL_SECS ∧
    (∀ i, (w'.calls i).isFinished = true) ∧
    w'.calls false = .issued sampleToken (some sampleRefresh) ∧
    AccessUsable (sampleJob false).backend.verifier sampleTenant sampleToken w'.shared.denied
      (seconds 200) ∧
    FamilyUsable sampleTenant.id (some sampleRefresh) w'.shared.tokens (seconds 200) := by
  have hrun : ((calls sampleTenant.id sampleJob).machine.run sampleStart
      (schedule [false, true, true, false, false, false])).any
        (fun w => bothDone w && allUsable w) = true := by
    decide +kernel
  obtain ⟨w', hrun, hdone⟩ := (Option.any_eq_true _ _).mp hrun
  rw [Bool.and_eq_true, allUsable, Bool.and_eq_true, decide_eq_true_eq] at hdone
  obtain ⟨hdone, haccess, htokens⟩ := hdone
  obtain ⟨hfirst, -, hnow⟩ := bothDone_iff.mp hdone
  refine ⟨w', hrun, untouched_sample, ?_, finished_of_bothDone hdone, hfirst, ?_, ?_⟩
  · rw [hnow]
    decide
  · cases hverify : Tokens.verifyAccess (sampleJob false).backend.verifier sampleTenant {} (seconds 200)
        sampleToken.token w'.shared.denied with
    | ok claims => exact ⟨claims, hverify⟩
    | error e =>
        rw [hverify] at haccess
        cases haccess
  · rw [htokens]
    exact ⟨sampleRefresh, rfl, sampleRefresh.record, List.mem_singleton_self _, by decide, by decide,
      by decide⟩

end Ridm.CodeReplay
