import Ridm.Clients.Model
import Ridm.Lib.Interleaving

/-!
# A client is never left without a secret

The operations on a client's secrets, each run alone, over any stretch of time.  At every moment
the list holds at most two secrets, newest first, and all but the newest have an end
(`Listed`); so a secret-based client can authenticate for ever exactly when its newest secret has
no end.

`revoke_secret` refuses the last secret, but counts what is in the list and not what lasts.
`newest_revoked`: after a rotation with a grace, revoking the new secret leaves the old one, and
when its grace is over the client has none.  `secrets_always_work` is the exact condition, that no
revocation names the newest secret while an older one is listed.
-/

namespace Ridm.Clients

/-- The clock, and the client's row. -/
structure State where
  now : Instant
  client : Client

/-- What is done to a client. -/
inductive Op
  | onSecrets (op : SecretOp)
  | updateMetadata (input : NewClient) (drawn : Draws)

/-- Time passes, or somebody carries out an operation. -/
inductive Step
  | tick (d : ℕ)
  | run (op : Op)

/-- The client after an operation. -/
def Op.apply (B : Backend) (now : Instant) (client : Client) : Op → Except AppError Client
  | .onSecrets op => op.apply B now client
  | .updateMetadata input drawn => Clients.updateMetadata B input now drawn client

/-- The operations one after the other.  One that fails is rolled back. -/
def machine (B : Backend) : Machine State Step where
  step s
    | .tick d => some { s with now := s.now + d }
    | .run op => some { s with client := (op.apply B s.now s.client).toOption.getD s.client }

/-- Some secret is active now and at every later time. -/
def Usable (s : State) : Prop :=
  ∃ h ∈ s.client.secretHashes, ∀ t, s.now ≤ t → h.isActive t = true

/-- The step does not revoke the newest secret while the client holds an older one. -/
def LeavesNewest (s : State) : Step → Prop
  | .run (.onSecrets (.revokeSecret secretId)) =>
      ∀ newest older, s.client.secretHashes = newest :: older → newest.id = secretId →
        ∀ h ∈ older, h.id = secretId
  | _ => True

/-- The step does not move the client to a method without secrets. -/
def StaysSecretBased (B : Backend) (s : State) : Step → Prop
  | .run (.updateMetadata input drawn) =>
      ∀ r, updatedMetadata B input drawn.clientId s.client = .ok r → r.2.2.usesSecret = true
  | _ => True

/-! ## What is true of the list at every moment -/

/-- **The invariant**: at most two secrets, newest first, all but the newest with an end; and one at
least where the method uses secrets. -/
structure Listed (now : Instant) (client : Client) : Prop where
  atMostTwo : client.secretHashes.length ≤ 2
  sorted : client.secretHashes.Pairwise fun a b => b.createdAt ≤ a.createdAt
  made : ∀ h ∈ client.secretHashes, h.createdAt ≤ now
  ending : ∀ h ∈ client.secretHashes.tail, h.expiresAt ≠ none
  held : client.usesSecret = true ↔ client.secretHashes ≠ []

variable {B : Backend} {now : Instant} {client client' : Client} {drawn : Draws}

variable {input : NewClient} {secretId : Uuid} {op : SecretOp} {h : ClientSecretHash} {e : AppError}

lemma lasting_iff :
    (∀ t, now ≤ t → h.isActive t = true) ↔ h.expiresAt = none := by
  cases hexp : h.expiresAt with
  | none => simp [ClientSecretHash.isActive, hexp]
  | some e =>
      simp only [ClientSecretHash.isActive, hexp, Option.all_some, decide_eq_true_eq, reduceCtorEq,
        iff_false, not_forall]
      exact ⟨max now e, Int.le_max_left .., Int.not_lt.mpr (Int.le_max_right ..)⟩

lemma usable_iff {s : State} : Usable s ↔ ∃ h ∈ s.client.secretHashes, h.expiresAt = none := by
  simp only [Usable, lasting_iff]

lemma Listed.usable_iff_head {s : State} (hl : Listed s.now s.client) :
    Usable s ↔ ∃ newest older, s.client.secretHashes = newest :: older ∧ newest.expiresAt = none := by
  rw [usable_iff]
  constructor
  · rintro ⟨h, hmem, hnone⟩
    cases hlist : s.client.secretHashes with
    | nil =>
        rw [hlist] at hmem
        cases hmem
    | cons newest older =>
        rw [hlist, List.mem_cons] at hmem
        rcases hmem with rfl | hmem
        · exact ⟨h, older, rfl, hnone⟩
        · exact absurd hnone (hl.ending h (by rwa [hlist]))
  · rintro ⟨newest, older, hlist, hnone⟩
    exact ⟨newest, by rw [hlist]; exact List.mem_cons_self, hnone⟩

lemma newestOf_eq {hashes : List ClientSecretHash}
    (h : hashes.Pairwise fun a b => b.createdAt ≤ a.createdAt) : newestOf hashes = hashes.take 1 := by
  rw [newestOf, h.insertionSort_eq]

lemma length_newestOf_le (hashes : List ClientSecretHash) : (newestOf hashes).length ≤ 1 :=
  List.length_take_le ..

lemma length_graced_le (hashes : List ClientSecretHash) (grace : ℤ) (now : Instant) :
    (graced hashes grace now).length ≤ 1 := by
  rw [graced, List.length_map]
  split_ifs
  · exact Nat.zero_le 1
  · exact length_newestOf_le _

/-! ## Each operation keeps it -/

lemma Listed.single {c : Client} (hmade : h.createdAt ≤ now)
    (hlist : c.secretHashes = if c.usesSecret then [h] else []) : Listed now c := by
  cases huses : c.usesSecret with
  | false =>
      rw [huses, if_neg Bool.false_ne_true] at hlist
      constructor <;> simp [hlist, huses]
  | true =>
      rw [huses, if_pos rfl] at hlist
      constructor <;> simp [hlist, huses, hmade]

lemma listed_resolve (h : resolve B input now drawn = .ok client) :
    Listed now client := by
  obtain ⟨clientId, clientType, method, -, rfl⟩ := resolve_eq_ok.mp h
  exact Listed.single (h := freshSecret B now drawn) (Int.le_refl now) rfl

lemma Listed.later (hl : Listed now client) (d : ℕ) : Listed (now + d) client :=
  { hl with
    made := fun h hmem => Int.le_trans (hl.made h hmem)
      (Int.le_add_of_nonneg_right (Int.natCast_nonneg d)) }

/-- **A rotation** puts its secret in front, and gives what it keeps an end. -/
lemma Listed.rotateSecret {grace : Option ℤ} (hl : Listed now client)
    (h : Clients.rotateSecret B grace now drawn client = .ok client') :
    Listed now client' ∧ ∃ older, client'.secretHashes = freshSecret B now drawn :: older := by
  obtain ⟨-, huses, rfl⟩ := rotateSecret_eq_ok.mp h
  refine ⟨⟨?_, ?_, ?_, ?_, ?_⟩, _, rfl⟩
  · exact Nat.succ_le_succ (length_graced_le ..)
  · refine List.pairwise_cons.mpr ⟨?_, ?_⟩
    · intro old hold
      obtain ⟨-, old', hold', -, hcreated⟩ := mem_graced hold
      exact hcreated ▸ hl.made old' hold'
    · -- one secret is in order
      have hlen := length_graced_le client.secretHashes (grace.getD SECRET_ROTATION_GRACE) now
      match hgraced : graced client.secretHashes (grace.getD SECRET_ROTATION_GRACE) now, hlen with
      | [], _ => exact List.Pairwise.nil
      | [_], _ => exact List.pairwise_singleton ..
  · intro old hold
    rcases List.mem_cons.mp hold with rfl | hold
    · exact Int.le_refl now
    · obtain ⟨-, old', hold', -, hcreated⟩ := mem_graced hold
      exact hcreated ▸ hl.made old' hold'
  · intro old hold
    rw [(mem_graced hold).1]
    exact nofun
  · exact iff_of_true huses nofun

/-- **Dropping old secrets** leaves the newest. -/
lemma Listed.revokeOldSecrets (hl : Listed now client) :
    Listed now (Clients.revokeOldSecrets client) ∧
      (Clients.revokeOldSecrets client).secretHashes = client.secretHashes.take 1 := by
  have htake : (Clients.revokeOldSecrets client).secretHashes = client.secretHashes.take 1 :=
    newestOf_eq hl.sorted
  refine ⟨⟨?_, ?_, ?_, ?_, ?_⟩, htake⟩
  · rw [htake]
    exact Nat.le_trans (List.length_take_le ..) (by omega)
  · rw [htake]
    exact hl.sorted.sublist (List.take_sublist ..)
  · rw [htake]
    exact fun h hmem => hl.made h (List.mem_of_mem_take hmem)
  · rw [htake]
    cases client.secretHashes <;> simp
  · rw [htake, ne_eq, List.take_eq_nil_iff]
    simpa [Clients.revokeOldSecrets, Client.usesSecret] using hl.held

/-- **Revoking a secret** leaves the others in their order. -/
lemma Listed.revokeSecret (hl : Listed now client)
    (h : Clients.revokeSecret secretId client = .ok client') : Listed now client' := by
  obtain ⟨⟨gone, hgone, -⟩, hleft, rfl⟩ := revokeSecret_eq_ok.mp h
  have huses : client.usesSecret = true := hl.held.mpr (List.ne_nil_of_mem hgone)
  refine ⟨?_, ?_, ?_, ?_, ?_⟩
  · exact Nat.le_trans (List.length_filter_le ..) hl.atMostTwo
  · exact hl.sorted.sublist List.filter_sublist
  · exact fun h hmem => hl.made h (List.mem_of_mem_filter hmem)
  · -- what follows the first secret that is left followed the first of all
    intro h hmem
    refine hl.ending h ?_
    have hlist : client.secretHashes = client.secretHashes.head (List.ne_nil_of_mem hgone) ::
        client.secretHashes.tail := (List.cons_head_tail _).symm
    rw [hlist, List.filter_cons] at hmem
    split_ifs at hmem
    · exact List.mem_of_mem_filter hmem
    · exact List.mem_of_mem_filter (List.mem_of_mem_tail hmem)
  · exact iff_of_true huses (hleft huses)

lemma Listed.onSecrets (hl : Listed now client)
    (h : op.apply B now client = .ok client') : Listed now client' := by
  cases op with
  | rotateSecret grace drawn => exact (hl.rotateSecret h).1
  | revokeSecret secretId => exact hl.revokeSecret h
  | revokeOldSecrets =>
      cases h
      exact hl.revokeOldSecrets.1

/-- **New metadata** keeps the list, drops it or starts a new one. -/
lemma Listed.updateMetadata (hl : Listed now client)
    (h : Clients.updateMetadata B input now drawn client = .ok client') : Listed now client' := by
  obtain ⟨clientId, clientType, method, -, rfl⟩ := updateMetadata_eq_ok.mp h
  cases huses : method.usesSecret with
  | false =>
      exact Listed.single (h := freshSecret B now drawn) (Int.le_refl now)
        (by simp [Client.usesSecret, huses])
  | true =>
      by_cases hactive : (client.activeSecrets now).isEmpty = true
      · exact Listed.single (h := freshSecret B now drawn) (Int.le_refl now)
          (by simp [Client.usesSecret, huses, hactive])
      · have hkept : client.secretHashes ≠ [] := by
          intro hnil
          exact hactive (by rw [Client.activeSecrets, hnil]; rfl)
        simp only [Bool.not_true, Bool.false_eq_true, if_false, if_neg hactive]
        exact ⟨hl.atMostTwo, hl.sorted, hl.made, hl.ending, iff_of_true huses hkept⟩

variable {s s' : State} {a : Step}

/-- **The invariant along a step.** -/
lemma Listed.step (hl : Listed s.now s.client) (hstep : (machine B).step s a = some s') :
    Listed s'.now s'.client := by
  cases a with
  | tick d =>
      cases hstep
      exact hl.later d
  | run op =>
      simp only [machine, Option.some.injEq] at hstep
      subst hstep
      cases h : op.apply B s.now s.client with
      | error e => exact hl
      | ok client' =>
          cases op with
          | onSecrets op => exact hl.onSecrets h
          | updateMetadata input drawn => exact hl.updateMetadata h

lemma Listed.usesSecret (hl : Listed s.now s.client) (hu : Usable s) : s.client.usesSecret = true := by
  obtain ⟨h, hmem, -⟩ := hu
  exact hl.held.mpr (List.ne_nil_of_mem hmem)

lemma machine_total (B : Backend) (s : State) (a : Step) : ∃ s', (machine B).step s a = some s' := by
  cases a <;> exact ⟨_, rfl⟩

/-! ## Which steps leave a lasting secret -/

lemma usable_of_head {newest : ClientSecretHash} {older : List ClientSecretHash}
    (hnone : newest.expiresAt = none) (hlist : s.client.secretHashes = newest :: older) : Usable s :=
  usable_iff.mpr ⟨newest, by rw [hlist]; exact List.mem_cons_self, hnone⟩

/-- **The revocation that goes wrong**: where a revocation goes through, a lasting secret is left
unless it took the newest away from older ones. -/
lemma Listed.usable_revokeSecret (hl : Listed s.now s.client) (hgood : Usable s)
    (h : Clients.revokeSecret secretId s.client = .ok client') :
    Usable { s with client := client' } ↔
      LeavesNewest s (.run (.onSecrets (.revokeSecret secretId))) := by
  obtain ⟨newest, older, hlist, hnone⟩ := hl.usable_iff_head.mp hgood
  obtain ⟨-, hleft, rfl⟩ := revokeSecret_eq_ok.mp h
  have huses : s.client.usesSecret = true := hl.held.mpr (by rw [hlist]; exact nofun)
  have hending : ∀ h ∈ older, h.expiresAt ≠ none := fun h hmem =>
    hl.ending h (by rw [hlist]; exact hmem)
  rw [usable_iff]
  by_cases hid : newest.id = secretId
  · -- what is left has an end, and something is left
    refine iff_of_false ?_ ?_
    · rintro ⟨h, hmem, hlast⟩
      rw [List.mem_filter, hlist, List.mem_cons] at hmem
      rcases hmem with ⟨rfl | hmem, hother⟩
      · exact absurd hid (by simpa using hother)
      · exact hending h hmem hlast
    · intro hleaves
      refine hleft huses (List.filter_eq_nil_iff.mpr ?_)
      intro h hmem
      rw [hlist, List.mem_cons] at hmem
      rcases hmem with rfl | hmem
      · simpa using hid
      · simpa using hleaves newest older hlist hid h hmem
  · refine iff_of_true ⟨newest, ?_, hnone⟩ ?_
    · rw [List.mem_filter, hlist]
      exact ⟨List.mem_cons_self, by simpa using hid⟩
    · intro newest' older' hlist' hid'
      rw [hlist, List.cons.injEq] at hlist'
      exact absurd (hlist'.1 ▸ hid') hid

lemma leavesNewest_of_refused (h : Clients.revokeSecret secretId s.client = .error e) :
    LeavesNewest s (.run (.onSecrets (.revokeSecret secretId))) := by
  intro newest older hlist hid old hold
  by_contra hother
  have hok : Clients.revokeSecret secretId s.client = .ok
      { s.client with secretHashes := s.client.secretHashes.filter (·.id != secretId) } := by
    refine revokeSecret_eq_ok.mpr ⟨⟨newest, ?_, hid⟩, fun _ => ?_, rfl⟩
    · rw [hlist]
      exact List.mem_cons_self
    · refine List.ne_nil_of_mem (a := old) (List.mem_filter.mpr ⟨?_, by simpa using hother⟩)
      rw [hlist]
      exact List.mem_cons_of_mem _ hold
  rw [hok] at h
  cases h

lemma usable_updateMetadata (hgood : s.client.usesSecret = true → Usable s)
    (hl : Listed s.now s.client)
    (h : Clients.updateMetadata B input s.now drawn s.client = .ok client')
    (huses : client'.usesSecret = true) : Usable { s with client := client' } := by
  obtain ⟨clientId, clientType, method, -, rfl⟩ := updateMetadata_eq_ok.mp h
  have hmethod : method.usesSecret = true := huses
  by_cases hactive : (s.client.activeSecrets s.now).isEmpty = true
  · have hlist : (if !method.usesSecret then []
        else if (s.client.activeSecrets s.now).isEmpty then [freshSecret B s.now drawn]
        else s.client.secretHashes) = [freshSecret B s.now drawn] := by simp [hmethod, hactive]
    exact usable_of_head rfl hlist
  · have hheld : s.client.secretHashes ≠ [] := by
      intro hnil
      exact hactive (by rw [Client.activeSecrets, hnil]; rfl)
    obtain ⟨secret, hmem, hnone⟩ := usable_iff.mp (hgood (hl.held.mpr hheld))
    exact usable_iff.mpr ⟨secret, by simpa [hmethod, hactive] using hmem, hnone⟩

/-- **What an operation on the secrets leaves of a lasting one**: it goes through, and leaves one
exactly when it leaves the newest alone. -/
lemma Listed.usable_onSecrets (hl : Listed s.now s.client) (hgood : Usable s)
    (h : op.apply B s.now s.client = .ok client') :
    Usable { s with client := client' } ↔ LeavesNewest s (.run (.onSecrets op)) := by
  cases op with
  | rotateSecret grace drawn =>
      obtain ⟨-, older, hlist⟩ := hl.rotateSecret h
      exact iff_of_true (usable_of_head rfl hlist) trivial
  | revokeSecret secretId => exact hl.usable_revokeSecret hgood h
  | revokeOldSecrets =>
      cases h
      refine iff_of_true ?_ trivial
      obtain ⟨newest, older, hlist, hnone⟩ := hl.usable_iff_head.mp hgood
      refine usable_iff.mpr ⟨newest, ?_, hnone⟩
      simp [hl.revokeOldSecrets.2, hlist]

lemma leavesNewest_of_unused (hl : Listed s.now s.client)
    (huses : s.client.usesSecret = false) : LeavesNewest s (.run (.onSecrets op)) := by
  cases op with
  | revokeSecret secretId =>
      intro newest older hlist
      have hnil := hl.held.not.mp (by simp [huses])
      rw [hlist] at hnil
      exact absurd nofun hnil
  | _ => trivial

lemma Listed.usable_apply {op : Op} (hl : Listed s.now s.client)
    (hgood : s.client.usesSecret = true → Usable s) (h : op.apply B s.now s.client = .ok client') :
    (client'.usesSecret = true → Usable { s with client := client' }) ↔ LeavesNewest s (.run op) := by
  cases op with
  | onSecrets op =>
      rw [SecretOp.apply_usesSecret h]
      cases huses : s.client.usesSecret with
      | false => exact iff_of_true (by simp) (leavesNewest_of_unused hl huses)
      | true => simpa using hl.usable_onSecrets (hgood huses) h
  | updateMetadata input drawn =>
      exact iff_of_true (usable_updateMetadata hgood hl h) trivial

lemma leavesNewest_of_error {op : Op} (h : op.apply B s.now s.client = .error e) :
    LeavesNewest s (.run op) := by
  cases op with
  | onSecrets op =>
      cases op with
      | revokeSecret secretId => exact leavesNewest_of_refused h
      | _ => trivial
  | updateMetadata input drawn => trivial

lemma Listed.usable_step (hl : Listed s.now s.client) (hgood : s.client.usesSecret = true → Usable s)
    (hstep : (machine B).step s a = some s') :
    (s'.client.usesSecret = true → Usable s') ↔ LeavesNewest s a := by
  cases a with
  | tick d =>
      cases hstep
      refine iff_of_true ?_ trivial
      intro huses
      obtain ⟨h, hmem, hlast⟩ := usable_iff.mp (hgood huses)
      exact usable_iff.mpr ⟨h, hmem, hlast⟩
  | run op =>
      simp only [machine, Option.some.injEq] at hstep
      subst hstep
      cases h : op.apply B s.now s.client with
      | error e => exact iff_of_true hgood (leavesNewest_of_error h)
      | ok client' => exact hl.usable_apply hgood h

/-- **Going on using secrets** is a matter of the updates alone. -/
lemma usesSecret_apply {op : Op} (huses : s.client.usesSecret = true)
    (h : op.apply B s.now s.client = .ok client') :
    client'.usesSecret = true ↔ StaysSecretBased B s (.run op) := by
  cases op with
  | onSecrets op =>
      rw [SecretOp.apply_usesSecret h]
      exact iff_of_true huses trivial
  | updateMetadata input drawn =>
      obtain ⟨clientId, clientType, method, hupdated, rfl⟩ := updateMetadata_eq_ok.mp h
      constructor
      · intro hmethod r hr
        rw [hupdated] at hr
        cases hr
        exact hmethod
      · exact fun hstays => hstays _ hupdated

lemma staysSecretBased_of_error {op : Op}
    (h : op.apply B s.now s.client = .error e) : StaysSecretBased B s (.run op) := by
  cases op with
  | updateMetadata input drawn =>
      intro r hr
      have hok : Clients.updateMetadata B input s.now drawn s.client = .ok _ :=
        updateMetadata_eq_ok.mpr ⟨_, _, _, hr, rfl⟩
      rw [Op.apply, hok] at h
      cases h
  | _ => trivial

lemma usesSecret_step (huses : s.client.usesSecret = true)
    (hstep : (machine B).step s a = some s') :
    s'.client.usesSecret = true ↔ StaysSecretBased B s a := by
  cases a with
  | tick d =>
      cases hstep
      exact iff_of_true huses trivial
  | run op =>
      simp only [machine, Option.some.injEq] at hstep
      subst hstep
      cases h : op.apply B s.now s.client with
      | error e => exact iff_of_true huses (staysSecretBased_of_error h)
      | ok client' => exact usesSecret_apply huses h

/-- **A client secret always works**, from the creation of a secret-based client on, as long as no
revocation names the newest secret while an older one is listed, and only then.  There are two
secrets at most in any case; and where "always" is to include the time after the client has been
moved to a method without secrets, no update may do that. -/
theorem secrets_always_work {input : NewClient} (hresolve : resolve B input now drawn = .ok client)
    (huses : client.usesSecret = true) (steps : List Step) :
    (∀ before after s, steps = before ++ after → (machine B).run ⟨now, client⟩ before = some s →
      s.client.secretHashes.length ≤ 2) ∧
    ((∀ before after s, steps = before ++ after → (machine B).run ⟨now, client⟩ before = some s →
      s.client.usesSecret = true → Usable s) ↔
        (machine B).Meets LeavesNewest ⟨now, client⟩ steps) ∧
    ((∀ before after s, steps = before ++ after → (machine B).run ⟨now, client⟩ before = some s →
      Usable s) ↔
        (machine B).Meets (fun s a => LeavesNewest s a ∧ StaysSecretBased B s a)
          ⟨now, client⟩ steps) := by
  have hl : Listed now client := listed_resolve hresolve
  have hgood : Usable ⟨now, client⟩ := by
    obtain ⟨clientId, clientType, method, -, rfl⟩ := resolve_eq_ok.mp hresolve
    have hmethod : method.usesSecret = true := huses
    have hlist : (if method.usesSecret then [freshSecret B now drawn] else []) =
        [freshSecret B now drawn] := by simp [hmethod]
    exact usable_of_head rfl hlist
  obtain ⟨last, hrun⟩ := Machine.exists_run (machine_total B) ⟨now, client⟩ steps
  refine ⟨?_, ?_, ?_⟩
  · intro before after s _ hs
    have hlisted : Listed s.now s.client :=
      Machine.run_inv (I := fun s => Listed s.now s.client) (C := fun _ _ => True)
        (fun hl _ hstep => hl.step hstep) (Machine.meets_of_forall (fun _ _ => trivial) ..) hs hl
    exact hlisted.atMostTwo
  · exact Machine.always_iff_meets (I := fun s => Listed s.now s.client)
      (G := fun s => s.client.usesSecret = true → Usable s) (A := fun _ => True)
      (fun _ hl hgood hstep => ⟨hl.step hstep, hl.usable_step hgood hstep⟩) (fun _ _ => trivial) hrun hl (fun _ => hgood)
  · refine Machine.always_iff_meets (I := fun s => Listed s.now s.client) (G := Usable)
      (A := fun _ => True) ?_ (fun _ _ => trivial) hrun hl hgood
    intro s a s' _ hl hgood hstep
    have hl' := hl.step hstep
    refine ⟨hl', ?_⟩
    rw [← hl.usable_step (fun _ => hgood) hstep, ← usesSecret_step (hl.usesSecret hgood) hstep]
    exact ⟨fun hu => ⟨fun _ => hu, hl'.usesSecret hu⟩, fun h => h.1 h.2⟩

/-! ## The operations that go wrong -/

def shop : NewClient where
  clientId := some "shop"
  name := "Shop"
  clientType := some .web
  tokenEndpointAuthMethod := none
  metadata := ""

def newShop : Client where
  id := 1
  clientId := "shop"
  clientType := .web
  tokenEndpointAuthMethod := .clientSecretBasic
  secretHashes := [⟨10, "cs_first", 0, none⟩]

lemma resolve_shop : resolve lenient shop 0 ⟨1, "", 10, "cs_first"⟩ = .ok newShop := rfl

def rotateAndRevoke : List Step :=
  [.tick 3600000000000, .run (.onSecrets (.rotateSecret (some (seconds 86400)) ⟨0, "", 11, "cs_second"⟩)),
    .run (.onSecrets (.revokeSecret 11))]

/-- **The newest secret revoked.**  What is left is the old secret, with a day to live; a day later
the client has no secret that works, though it still uses secrets. -/
theorem newest_revoked :
    (∃ client, resolve lenient shop 0 ⟨1, "", 10, "cs_first"⟩ = .ok client ∧ client.usesSecret = true ∧
      ¬ ∀ before after s, rotateAndRevoke = before ++ after →
        (machine lenient).run ⟨0, client⟩ before = some s →
          (s.client.usesSecret = true → Usable s) ∧ s.client.secretHashes.length ≤ 2) ∧
    ∃ s, (machine lenient).run ⟨0, newShop⟩ (rotateAndRevoke ++ [.tick 86400000000000]) = some s ∧
      s.client.usesSecret = true ∧ s.client.activeSecrets s.now = [] := by
  refine ⟨⟨newShop, resolve_shop, rfl, ?_⟩, ?_⟩
  · intro hall
    obtain ⟨h, hmem, hnone⟩ := usable_iff.mp ((hall rotateAndRevoke [] _ (by simp) rfl).1 rfl)
    have hlist : h ∈ [(⟨10, "cs_first", 0, some 90000000000000⟩ : ClientSecretHash)] := hmem
    rw [List.mem_singleton] at hlist
    rw [hlist] at hnone
    cases hnone
  · exact ⟨_, rfl, rfl, rfl⟩

/-- The old secret is revoked instead, and the client goes on with the new one. -/
theorem secrets_always_work_shop :
    newShop.usesSecret = true ∧ ∀ before after s,
      ([.tick 3600000000000, .run (.onSecrets (.rotateSecret (some (seconds 86400)) ⟨0, "", 11, "cs_second"⟩)),
        .run (.onSecrets (.revokeSecret 10)), .run (.onSecrets .revokeOldSecrets)] : List Step) = before ++ after →
      (machine lenient).run ⟨0, newShop⟩ before = some s → s.client.usesSecret = true → Usable s := by
  refine ⟨rfl, (secrets_always_work resolve_shop rfl _).2.1.mpr ⟨trivial, trivial, ?_, trivial, trivial⟩⟩
  intro newest older hlist hid
  have hnewest : (⟨11, "cs_second", 3600000000000, none⟩ : ClientSecretHash) = newest :=
    List.head_eq_of_cons_eq hlist
  rw [← hnewest] at hid
  exact absurd hid (by decide)

end Ridm.Clients
