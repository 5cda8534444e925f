import Ridm.Keys.Revocations

/-!
# A key stays published for as long as its tokens last

A key that is retired stays published for the policy's overlap, counted from a reading of the clock; a
token that lasts no longer than that and was signed before the reading is then over first.  A key that
is activated again keeps its old `expires_at`, which nothing looks at until it is retired again.

It is for calls that run one at a time (`Alone`).  Two things remain that the code does not see to.
`maintain` lists on a replica, and revokes a key that a replica still shows as retiring although it has
been activated again, and signs (`token_outlives_key`).  And between the reading of the clock and the
commit that retires the key, it still signs: such a token may outlive it.  `token_key_published` says
that nothing else goes wrong.
-/

namespace Ridm.Keys

variable {ι : Type} {policy : KeyPolicy}

/-- A token lasts no longer than a retired key is published. -/
def Token.Covered (policy : KeyPolicy) (tok : Token) : Prop :=
  tok.exp ≤ tok.signedAt + policy.retireOverlap

instance (tok : Token) : Decidable (tok.Covered policy) := Int.decLe _ _

/-- A call takes a step only when no other is under way. -/
def Alone (w : Pool ι Store Task) : Pick ι Choice Env → Prop
  | .env _ => True
  | .call i _ => ∀ j, j ≠ i → (w.calls j).inProgress = false

instance [Fintype ι] [DecidableEq ι] (w : Pool ι Store Task) (p : Pick ι Choice Env) :
    Decidable (Alone w p) :=
  match p with
  | .env _ => .isTrue trivial
  | .call i _ => inferInstanceAs (Decidable (∀ j, j ≠ i → (w.calls j).inProgress = false))

/-- Of a key that is about to be retired, no token was signed at the reading of the clock or after it
that lasts as long as the key. -/
def InTime (policy : KeyPolicy) (g : Store) (l : Task) : Prop :=
  ∀ c ∈ l.writes, c.status = .retiring → ∀ e ∈ c.expiresAt, ∀ k ∈ g.table.rows, k.id = c.id →
    ∀ tok ∈ g.tokens, tok.kid = k.kid → tok.Covered policy → g.now ≤ tok.exp →
      e ≤ tok.signedAt + policy.retireOverlap → tok.exp < e

instance (g : Store) (l : Task) : Decidable (InTime policy g l) := by
  unfold InTime
  infer_instance

/-- The listing of `maintain` is right, and no token comes between. -/
def Timely (policy : KeyPolicy) (w : Pool ι Store Task) : Pick ι Choice Env → Prop
  | .env _ => True
  | .call i k => Current w.shared (w.calls i) k ∧ InTime policy w.shared (w.calls i)

instance (w : Pool ι Store Task) (p : Pick ι Choice Env) : Decidable (Timely policy w p) :=
  match p with
  | .env _ => .isTrue trivial
  | .call i k =>
      inferInstanceAs (Decidable (Current w.shared (w.calls i) k ∧ InTime policy w.shared (w.calls i)))

/-- A row keeps a token verifiable: it is published, and when it is retiring the token is over first. -/
def SigningKey.Keeps (tok : Token) (k : SigningKey) : Prop :=
  k.kid = tok.kid ∧ k.status.isPublished = true ∧
    (k.status = .retiring → ∀ e ∈ k.expiresAt, tok.exp < e)

/-- Each token that is not over finds its key. -/
def Store.Verifies (policy : KeyPolicy) (g : Store) : Prop :=
  ∀ tok ∈ g.tokens, tok.Covered policy → g.now ≤ tok.exp → ∃ k ∈ g.table.rows, k.Keeps tok

/-! ## Steps -/

lemma Alone.undisturbed {w : Pool ι Store Task} {i : ι} {k : Choice} (h : Alone w (.call i k))
    (hcurrent : Current w.shared (w.calls i) k) : Undisturbed w (.call i k) := by
  refine ⟨hcurrent, fun j hj c _ hc => ?_⟩
  have hidle := h j hj
  cases hl : w.calls j <;> rw [hl] at hc hidle
  case revoking | revokingAt => cases hidle
  all_goals cases hc

section Steps

variable {g g' : Store} {l l' : Task} {k : Choice} {c : Change} {key : SigningKey} {tok : Token}

lemma writes_cases (hc : c ∈ l.writes) :
    c.status = .active ∨ (c.status = .retiring ∧ c.expiresAt.isSome = true) ∨ c.status = .revoked := by
  cases l with
  | activating key overlap active rest =>
      rcases List.mem_append.mp hc with hother | hself
      · obtain ⟨other, -, rfl⟩ := List.mem_map.mp hother
        exact .inr (.inl ⟨rfl, rfl⟩)
      · obtain rfl := List.mem_singleton.mp hself
        exact .inl rfl
  | retiring id overlap =>
      obtain rfl := List.mem_singleton.mp hc
      exact .inr (.inl ⟨rfl, rfl⟩)
  | revokingAt now at' id ids =>
      obtain rfl := List.mem_singleton.mp hc
      exact .inr (.inr rfl)
  | _ => cases hc

lemma Token.Covered.lt {overlap : Instant} (h : tok.Covered policy)
    (hbefore : ¬ overlap ≤ tok.signedAt + policy.retireOverlap) : tok.exp < overlap :=
  Int.lt_of_le_of_lt h (Int.not_le.mp hbefore)

/-- **What an update does to the key of a token**: it keeps the token verifiable. -/
lemma SigningKey.Keeps.apply {row : SigningKey} (hkeeps : key.Keeps tok) (hid : c.id = key.id)
    (hc : c ∈ l.writes) (hallows : g.Allows l) (hintime : InTime policy g l)
    (hrow : row ∈ g.table.rows) (hrowid : row.id = key.id) (hrowkeeps : row.Keeps tok)
    (htok : tok ∈ g.tokens) (hcov : tok.Covered policy) (hnow : g.now ≤ tok.exp) :
    (c.apply key).Keeps tok := by
  rw [Change.apply_of_eq hid.symm]
  rcases writes_cases hc with hactive | ⟨hretiring, hsome⟩ | hrevoked
  · refine ⟨hkeeps.1, ?_, fun h => ?_⟩
    · rw [hactive]
      rfl
    · rw [hactive] at h
      cases h
  · obtain ⟨e, he⟩ := Option.isSome_iff_exists.mp hsome
    refine ⟨hkeeps.1, by rw [hretiring]; rfl, fun _ e' he' => ?_⟩
    have hee : e = e' := by
      have : (c.expiresAt <|> key.expiresAt) = some e' := he'
      rw [he] at this
      exact Option.some.inj this
    subst hee
    by_cases hlate : e ≤ tok.signedAt + policy.retireOverlap
    · exact hintime c hc hretiring e he row hrow (hrowid.trans hid.symm) tok htok
        hrowkeeps.1.symm hcov hnow hlate
    · exact hcov.lt hlate
  · -- what is revoked is past its overlap, so the token is over
    exfalso
    obtain ⟨past, hpast, hpastid, hretiring, hexp⟩ := hallows.past c.id (pending_of_revoked hc hrevoked)
    obtain ⟨e, he, hle⟩ := SigningKey.isExpired_iff.mp hexp
    obtain rfl := KeyTable.eq_of_id_eq hpast hrow (hpastid.trans (hid.trans hrowid.symm))
    exact absurd hnow (Int.not_le.mpr (Int.lt_of_lt_of_le (hrowkeeps.2.2 hretiring e he) hle))

lemma Store.Verifies.effect (h : g.Verifies policy) (heff : Effect g l k g' l') (hallows : g.Allows l)
    (hintime : InTime policy g l) : g'.Verifies policy := by
  cases heff with
  | quiet | listed => exact h
  | inserted key t l' ht =>
      intro tok htok hcov hnow
      obtain ⟨row, hrow, hkeeps⟩ := h tok htok hcov hnow
      exact ⟨row, KeyTable.mem_insert ht hrow, hkeeps⟩
  | committed t l' ht =>
      intro tok htok hcov hnow
      obtain ⟨row, hrow, hkeeps⟩ := h tok htok hcov hnow
      obtain ⟨row', hrow', -, -, hkeeps'⟩ := KeyTable.setAll_keeps (P := SigningKey.Keeps tok) ht hrow
        hkeeps fun c hc hid key hkey hkeeps' => hkeeps'.apply (hid.trans hkey.symm) hc hallows hintime
          hrow hkey.symm hkeeps htok hcov hnow
      exact ⟨row', hrow', hkeeps'⟩

lemma Store.Verifies.env {e : Env} (h : g.Verifies policy) (hstep : env g e = some g') :
    g'.Verifies policy := by
  cases e with
  | tick d =>
      cases hstep
      intro tok htok hcov hnow
      exact h tok htok hcov (Int.le_trans (Int.le_add_of_nonneg_right (Int.natCast_nonneg d)) hnow)
  | sign alg exp =>
      obtain ⟨key, hkey, hstep⟩ := Option.bind_eq_some_iff.mp hstep
      cases hstep
      intro tok htok hcov hnow
      rcases List.mem_cons.mp htok with rfl | hold
      · obtain ⟨hmem, hactive⟩ := KeyTable.of_findActive hkey
        refine ⟨key, hmem, rfl, by rw [hactive]; rfl, fun hretiring => ?_⟩
        rw [hactive] at hretiring
        cases hretiring
      · exact h tok hold hcov hnow

end Steps

/-! ## Runs -/

/-- **A token verifies until it expires**, in every run of calls that run alone and are timely: up to
`exp`, the key of each token that lasts no longer than the overlap is published. -/
theorem token_key_published [DecidableEq ι] {w w' : Pool ι Store Task} {as : List (Pick ι Choice Env)}
    (policy : KeyPolicy) (hstart : ∀ i, (w.calls i).isStart = true) (hnone : w.shared.tokens = [])
    (halone : (calls ι policy).machine.Meets Alone w as)
    (htimely : (calls ι policy).machine.Meets (Timely policy) w as)
    (hrun : (calls ι policy).machine.run w as = some w') :
    ∀ tok ∈ w'.shared.tokens, tok.Covered policy → w'.shared.now ≤ tok.exp →
      ∃ k ∈ w'.shared.table.listPublished, k.kid = tok.kid := by
  have hinv := Calls.run_inv (I := fun w => (∀ i, w.shared.Allows (w.calls i)) ∧
    w.shared.Verifies policy) ?_ ?_ (halone.and htimely) hrun ⟨fun i => .of_start (hstart i), ?_⟩
  · intro tok htok hcov hnow
    obtain ⟨row, hrow, hkid, hpublished, -⟩ := hinv.2 tok htok hcov hnow
    exact ⟨row, KeyTable.mem_listPublished.mpr ⟨hrow, hpublished⟩, hkid⟩
  · rintro w i k g l ⟨hallows, hverifies⟩ ⟨halone, hcurrent, hintime⟩ hstep
    have heff := act_effect hstep
    exact ⟨allows_step hallows (halone.undisturbed hcurrent) heff,
      hverifies.effect heff (hallows i) hintime⟩
  · rintro w e g ⟨hallows, hverifies⟩ - hstep
    have hallows' : ∀ i, g.Allows (w.calls i) := allows_env hallows hstep
    exact ⟨hallows', hverifies.env hstep⟩
  · intro tok htok
    rw [hnone] at htok
    exact absurd htok List.not_mem_nil

/-! ## A key that signs, and is revoked -/

def signedAgain : List (Pick (Fin 2) Choice Env) :=
  [.call 1 .go, .call 1 .go, .call 1 .go, .call 1 .go, .env (.tick 5),
    .env (.sign .rs256 (seconds 3600))]

def maintainedBehind (behind : ℕ) : List (Pick (Fin 2) Choice Env) :=
  [.call 0 .go, .call 0 (.reads behind), .call 0 .go, .call 0 .go]

def agingPool : Pool (Fin 2) Store Task :=
  ⟨⟨seconds 20, ⟨[{ pastKey with status := .active, expiresAt := none }], by decide⟩, [], [], []⟩,
    ![.maintain, .retire 1]⟩

def retired : List (Pick (Fin 2) Choice Env) :=
  [.env (.sign .rs256 (seconds 3600)), .call 1 .go, .call 1 .go, .call 1 .go,
    .env (.tick (seconds 1800).toNat)]

def swept : List (Pick (Fin 2) Choice Env) := .env (.tick (days 1).toNat) :: maintainedBehind 0

/-- A key is retired while its token lasts, and is published then; a day later it is revoked. -/
theorem token_key_published_maintained :
    ∃ w w', (calls (Fin 2) dayPolicy).machine.run agingPool retired = some w ∧
      (calls (Fin 2) dayPolicy).machine.run w swept = some w' ∧ w'.shared.revocations.length = 1 ∧
      w.shared.table.rows.all (fun k => k.status == .retiring) = true ∧
      ∃ tok ∈ w.shared.tokens, tok.Covered dayPolicy ∧ w.shared.now ≤ tok.exp ∧
        ∃ k ∈ w.shared.table.listPublished, k.kid = tok.kid := by
  have hany : ((calls (Fin 2) dayPolicy).machine.run agingPool retired).any (fun w =>
      ((calls (Fin 2) dayPolicy).machine.run w swept).any (fun w' => w'.shared.revocations.length == 1) &&
        w.shared.table.rows.all (fun k => k.status == .retiring) &&
        w.shared.tokens.any fun tok => decide (tok.Covered dayPolicy ∧ w.shared.now ≤ tok.exp)) = true := by
    decide +kernel
  obtain ⟨w, hrun, hw⟩ := Machine.exists_run_of_any hany
  simp only [Bool.and_eq_true] at hw
  obtain ⟨⟨hswept, hretiring⟩, hlasts⟩ := hw
  obtain ⟨w', hrun', hlen⟩ := Machine.exists_run_of_any hswept
  obtain ⟨tok, htok, hlasts⟩ := List.any_eq_true.mp hlasts
  obtain ⟨hcov, hnow⟩ := of_decide_eq_true hlasts
  exact ⟨w, w', hrun, hrun', by simpa using hlen, hretiring, tok, htok, hcov, hnow,
    token_key_published dayPolicy (by decide) rfl (by decide +kernel) (by decide +kernel) hrun tok htok
      hcov hnow⟩

/-- **A token outlives its key**: the replica that `maintain` lists on has not seen the activation. -/
theorem token_outlives_key :
    ¬ ∀ (policy : KeyPolicy) (w w' : Pool (Fin 2) Store Task) (as : List (Pick (Fin 2) Choice Env)),
      (∀ i, (w.calls i).isStart = true) → w.shared.tokens = [] →
      (calls (Fin 2) policy).machine.Meets Alone w as →
      (calls (Fin 2) policy).machine.run w as = some w' →
      ∀ tok ∈ w'.shared.tokens, tok.Covered policy → w'.shared.now ≤ tok.exp →
        ∃ k ∈ w'.shared.table.listPublished, k.kid = tok.kid := by
  intro h
  have hany : ((calls (Fin 2) dayPolicy).machine.run pastPool (signedAgain ++ maintainedBehind 1)).any
      (fun w => w.shared.table.rows.all (fun k => k.status == .revoked) &&
        w.shared.tokens.any fun tok => decide (tok.Covered dayPolicy ∧ w.shared.now ≤ tok.exp)) = true := by
    decide +kernel
  obtain ⟨w', hrun, hgone⟩ := Machine.exists_run_of_any hany
  rw [Bool.and_eq_true] at hgone
  obtain ⟨hrevoked, hvalid⟩ := hgone
  obtain ⟨tok, htok, hvalid⟩ := List.any_eq_true.mp hvalid
  obtain ⟨hcov, hnow⟩ := of_decide_eq_true hvalid
  obtain ⟨k, hk, -⟩ := h dayPolicy pastPool w' _ (by decide) rfl (by decide +kernel) hrun tok htok
    hcov hnow
  obtain ⟨hmem, hpublished⟩ := KeyTable.mem_listPublished.mp hk
  rw [beq_iff_eq.mp (List.all_eq_true.mp hrevoked k hmem)] at hpublished
  cases hpublished

end Ridm.Keys
