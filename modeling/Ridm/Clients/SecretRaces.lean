import Mathlib.Data.Fintype.Basic
import Ridm.Clients.Model
import Ridm.Lib.Interleaving

/-!
# Two administrators at one client

`rotate_secret`, `revoke_secret` and `revoke_old_secrets` read the client's row without a lock, work
out the new list and write the whole of it, in one `READ COMMITTED` transaction.  A second `UPDATE`
waits for the row lock of the first and then overwrites what it wrote, so what happens is that of an
unlocked read and, later, a write and commit in one.

So two operations that overlap undo each other: a revoked secret comes back, and a secret that was
just handed out is gone (`revoked_secret_back`).  `secrets_honoured` holds of the schedules in which
every write finds the secrets its operation read.

Beside the row the store has two histories: what was ever revoked by its id, and what was ever left
out of a list by an operation that had read it.
-/

namespace Ridm.Clients

/-- The clock, the client's row, and what became of its secrets. -/
structure Store where
  now : Instant
  client : Client
  revoked : List Uuid
  removed : List Uuid

/-- Where a call stands. -/
inductive Pc
  | idle (op : SecretOp)
  | read (op : SecretOp) (client : Client)
  | writing (op : SecretOp) (before after : List ClientSecretHash)
  | committed (op : SecretOp)
  | returned (op : SecretOp)
  | failed (e : AppError)

def ids (hashes : List ClientSecretHash) : List Uuid := hashes.map ClientSecretHash.id

/-- What a `revoke_secret` revokes. -/
def SecretOp.revokes : SecretOp → List Uuid
  | .revokeSecret secretId => [secretId]
  | _ => []

/-- The ids it gives to new secrets. -/
def SecretOp.draws : SecretOp → List Uuid
  | .rotateSecret _ drawn => [drawn.secretId]
  | _ => []

/-- `set_secret_hashes` and `COMMIT`. -/
def Store.commit (g : Store) (op : SecretOp) (before after : List ClientSecretHash) : Store :=
  { g with
    client := { g.client with secretHashes := after }
    revoked := op.revokes ++ g.revoked
    removed := (ids before).filter (· ∉ ids after) ++ g.removed }

/-- The next step of a call. -/
def act (B : Backend) (g : Store) : Pc → Option (Store × Pc)
  | .idle op => some (g, .read op g.client)
  | .read op client =>
      match op.apply B g.now client with
      | .ok client' => some (g, .writing op client.secretHashes client'.secretHashes)
      | .error e => some (g, .failed e)
  | .writing op before after => some (g.commit op before after, .committed op)
  | .committed op => some (g, .returned op)
  | .returned _ => none
  | .failed _ => none

/-- Any number of operations on one client, while time passes. -/
def calls (ι : Type) (B : Backend) : Calls ι Store Pc Unit ℕ where
  act _ g l _ := act B g l
  env g d := some { g with now := g.now + d }

/-- No call has begun. -/
def Pc.isIdle : Pc → Bool
  | .idle _ => true
  | _ => false

/-- The operation of a call that has committed. -/
def Pc.done : Pc → Option SecretOp
  | .committed op | .returned op => some op
  | _ => none

section

variable {ι : Type} {B : Backend}

/-- The next step of the call is no write, or **the write is not stale**: the row still has the secrets
that were read, but for the one to revoke, and no other; and a new id is not that of a revoked secret. -/
def Store.FreshWrite (g : Store) : Pc → Prop
  | .writing op before _ =>
      (∀ id ∈ ids g.client.secretHashes, id ∈ ids before) ∧
        (∀ id ∈ ids before, id ∈ ids g.client.secretHashes ∨ id ∈ op.revokes) ∧
          ∀ id ∈ op.draws, id ∉ g.revoked
  | _ => True

instance (g : Store) : DecidablePred g.FreshWrite
  | .writing _ _ _ => inferInstanceAs (Decidable (_ ∧ _))
  | .idle _ | .read _ _ | .committed _ | .returned _ | .failed _ => .isTrue trivial

/-- No write of the schedule is stale. -/
def FreshWrites (w : Pool ι Store Pc) : Pick ι Unit ℕ → Prop
  | .call i _ => w.shared.FreshWrite (w.calls i)
  | .env _ => True

instance (w : Pool ι Store Pc) : DecidablePred (FreshWrites w)
  | .call i _ => inferInstanceAs (Decidable (w.shared.FreshWrite (w.calls i)))
  | .env _ => .isTrue trivial

/-- A secret whose `revoke_secret` has returned is not in the list, and one that a `rotate_secret`
has returned is, unless an operation that had read it has removed it. -/
structure Honoured (w : Pool ι Store Pc) : Prop where
  gone : ∀ i id, w.calls i = .returned (.revokeSecret id) → id ∉ ids w.shared.client.secretHashes
  kept : ∀ i grace drawn, w.calls i = .returned (.rotateSecret grace drawn) →
    drawn.secretId ∈ ids w.shared.client.secretHashes ∨ drawn.secretId ∈ w.shared.removed

/-- What an operation works out of the list it read: what it revokes is gone, what it draws is there,
and the rest was there before. -/
structure SecretOp.Serves (op : SecretOp) (before after : List ClientSecretHash) : Prop where
  gone : ∀ id ∈ op.revokes, id ∉ ids after
  drawn : ∀ id ∈ op.draws, id ∈ ids after
  within : ∀ id ∈ ids after, id ∈ ids before ∨ id ∈ op.draws

/-- **The invariant.** -/
structure Inv (w : Pool ι Store Pc) : Prop where
  revoked : ∀ id ∈ w.shared.revoked, id ∉ ids w.shared.client.secretHashes
  serves : ∀ i op before after, w.calls i = .writing op before after → op.Serves before after
  noted : ∀ i id, (w.calls i).done = some (.revokeSecret id) → id ∈ w.shared.revoked
  kept : ∀ i grace drawn, (w.calls i).done = some (.rotateSecret grace drawn) →
    drawn.secretId ∈ ids w.shared.client.secretHashes ∨ drawn.secretId ∈ w.shared.removed

lemma Inv.honoured {w : Pool ι Store Pc} (h : Inv w) : Honoured w where
  gone i id hi := h.revoked id (h.noted i id (by rw [hi]; rfl))
  kept i grace drawn hi := h.kept i grace drawn (by rw [hi]; rfl)

/-- **What each operation makes of the list** it read. -/
lemma serves_apply {op : SecretOp} {now : Instant} {client client' : Client}
    (h : op.apply B now client = .ok client') : op.Serves client.secretHashes client'.secretHashes := by
  cases op with
  | rotateSecret grace drawn =>
      obtain ⟨-, -, rfl⟩ := rotateSecret_eq_ok.mp h
      refine ⟨fun _ hid => absurd hid List.not_mem_nil, fun id hid => ?_, fun id hid => ?_⟩
      · rw [List.mem_singleton.mp hid]
        exact List.mem_cons_self
      · rcases List.mem_cons.mp hid with rfl | hold
        · exact .inr (List.mem_singleton_self _)
        · obtain ⟨hash, hhash, rfl⟩ := List.mem_map.mp hold
          obtain ⟨-, old, hmem, hsame, -⟩ := mem_graced hhash
          exact .inl (List.mem_map.mpr ⟨old, hmem, hsame⟩)
  | revokeSecret secretId =>
      obtain ⟨-, -, rfl⟩ := revokeSecret_eq_ok.mp h
      refine ⟨fun id hid => ?_, fun _ hid => absurd hid List.not_mem_nil, fun id hid => .inl ?_⟩
      · rw [List.mem_singleton.mp hid]
        simp [ids]
      · exact (List.filter_sublist.map _).mem hid
  | revokeOldSecrets =>
      cases h
      refine ⟨fun _ hid => absurd hid List.not_mem_nil, fun _ hid => absurd hid List.not_mem_nil,
        fun id hid => .inl ?_⟩
      obtain ⟨hash, hhash, rfl⟩ := List.mem_map.mp hid
      exact List.mem_map.mpr ⟨hash, mem_newestOf hhash, rfl⟩

/-- **What a step does**: it reads or works something out, or it writes, or it returns. -/
lemma act_cases {g g' : Store} {l l' : Pc} (h : act B g l = some (g', l')) :
    (g' = g ∧ l'.done = l.done ∧
      ∀ op before after, l' = .writing op before after → op.Serves before after) ∨
    ∃ op before after, l = .writing op before after ∧ g' = g.commit op before after ∧
      l' = .committed op := by
  cases l with
  | idle op =>
      cases h
      exact .inl ⟨rfl, rfl, nofun⟩
  | read op client =>
      simp only [act] at h
      split at h
      · next client' happly =>
          cases h
          refine .inl ⟨rfl, rfl, ?_⟩
          intro op' before after heq
          cases heq
          exact serves_apply happly
      · cases h
        exact .inl ⟨rfl, rfl, nofun⟩
  | writing op before after =>
      cases h
      exact .inr ⟨op, before, after, rfl, rfl, rfl⟩
  | committed op =>
      cases h
      exact .inl ⟨rfl, rfl, nofun⟩
  | returned op => cases h
  | failed e => cases h

variable [DecidableEq ι] {w w' : Pool ι Store Pc} {i : ι} {as : List (Pick ι Unit ℕ)}

/-- **A step that writes nothing** keeps the invariant. -/
lemma Inv.read_step {l' : Pc} (h : Inv w) (hdone : l'.done = (w.calls i).done)
    (hserves : ∀ op before after, l' = .writing op before after → op.Serves before after) :
    Inv (w.next i w.shared l') := by
  have hold : ∀ j, ((w.next i w.shared l').calls j).done = (w.calls j).done := Pool.next_congr hdone
  refine ⟨h.revoked, ?_, ?_, ?_⟩
  · intro j op before after hj
    rcases Pool.next_cases hj with ⟨-, hself⟩ | hstill
    · exact hserves op before after hself
    · exact h.serves j op before after hstill
  · intro j id hj
    exact h.noted j id (hold j ▸ hj)
  · intro j grace drawn hj
    exact h.kept j grace drawn (hold j ▸ hj)

/-- **A write that is not stale** keeps the invariant. -/
lemma Inv.write_step {op : SecretOp} {before after : List ClientSecretHash} (h : Inv w)
    (hi : w.calls i = .writing op before after) (hfresh : w.shared.FreshWrite (.writing op before after)) :
    Inv (w.next i (w.shared.commit op before after) (.committed op)) := by
  have hserves := h.serves i op before after hi
  obtain ⟨hread, hstill, hnew⟩ := hfresh
  -- what the operation keeps is still stored, so it has not been revoked
  have hrevoked : ∀ id ∈ ids after, id ∉ w.shared.revoked := by
    intro id hafter hid
    rcases hserves.within id hafter with hbefore | hdrawn
    · rcases hstill id hbefore with hstored | hgone
      · exact h.revoked id hid hstored
      · exact hserves.gone id hgone hafter
    · exact hnew id hdrawn hid
  have hdone : ∀ j op', ((w.next i (w.shared.commit op before after) (.committed op)).calls j).done =
      some op' → op' = op ∨ (w.calls j).done = some op' := by
    intro j op' hj
    rcases Pool.next_read hj with ⟨-, hself⟩ | hstill
    · exact .inl (Option.some.inj hself).symm
    · exact .inr hstill
  refine ⟨?_, ?_, ?_, ?_⟩
  · intro id hid hmem
    rw [Pool.next_shared, Store.commit, List.mem_append] at hid
    rcases hid with hid | hid
    · exact hserves.gone id hid hmem
    · exact hrevoked id hmem hid
  · intro j op' before' after' hj
    rcases Pool.next_cases hj with ⟨-, hself⟩ | hstill
    · cases hself
    · exact h.serves j op' before' after' hstill
  · intro j id hj
    refine List.mem_append.mpr ?_
    rcases hdone j _ hj with heq | hold
    · exact .inl (by rw [← heq]; exact List.mem_singleton_self id)
    · exact .inr (h.noted j id hold)
  · intro j grace drawn hj
    rcases hdone j _ hj with heq | hold
    · exact .inl (hserves.drawn _ (by rw [← heq]; exact List.mem_singleton_self _))
    · -- an earlier rotation's secret: removed before, or read by this call, which keeps or removes it
      have hremoved : drawn.secretId ∈ w.shared.removed →
          drawn.secretId ∈ (w.shared.commit op before after).removed :=
        fun hmem => List.mem_append.mpr (.inr hmem)
      rcases h.kept j grace drawn hold with hstored | hmem
      · by_cases hafter : drawn.secretId ∈ ids after
        · exact .inl hafter
        · exact .inr (List.mem_append.mpr (.inl (List.mem_filter.mpr
            ⟨hread _ hstored, decide_eq_true hafter⟩)))
      · exact .inr (hremoved hmem)

/-- **A revoked client secret stays revoked, and a new one stays**, in every schedule of any number
of operations whose writes are not stale. -/
theorem secrets_honoured (hidle : ∀ i, (w.calls i).isIdle = true) (hnew : w.shared.revoked = [])
    (hmeets : (calls ι B).machine.Meets FreshWrites w as)
    (hrun : (calls ι B).machine.run w as = some w') : Honoured w' := by
  refine Inv.honoured (Calls.run_inv (I := Inv) ?_ ?_ hmeets hrun ?_)
  · intro w i k g' l' h hC hstep
    rcases act_cases hstep with ⟨rfl, hdone, hserves⟩ | ⟨op, before, after, hi, rfl, rfl⟩
    · exact h.read_step hdone hserves
    · simp only [FreshWrites, hi] at hC
      exact h.write_step hi hC
  · intro w d g' h _ hstep
    cases hstep
    exact ⟨h.revoked, h.serves, h.noted, h.kept⟩
  · have hnone : ∀ i l, w.calls i = l → l.isIdle = true := fun i l hl => hl ▸ hidle i
    have hdone : ∀ i, (w.calls i).done = none := by
      intro i
      cases hl : w.calls i with
      | idle op => rfl
      | _ => exact absurd (hnone i _ hl) (by simp [Pc.isIdle])
    refine ⟨by simp [hnew], ?_, ?_, ?_⟩
    · intro i op before after hi
      exact absurd (hnone i _ hi) (by simp [Pc.isIdle])
    · intro i id hi
      rw [hdone] at hi
      cases hi
    · intro i grace drawn hi
      rw [hdone] at hi
      cases hi

end

/-! ## The schedules that go wrong -/

def administrators : Pool (Fin 3) Store Pc where
  shared :=
    { now := seconds 60
      client :=
        { id := 1
          clientId := "shop"
          clientType := .web
          tokenEndpointAuthMethod := .clientSecretBasic
          secretHashes := [⟨11, "cs_second", seconds 30, none⟩,
            ⟨10, "cs_first", seconds 0, some (seconds 86430)⟩] }
      revoked := []
      removed := [] }
  calls
    | 0 => .idle (.revokeSecret 11)
    | 1 => .idle (.rotateSecret none ⟨0, "", 12, "cs_third"⟩)
    | 2 => .idle (.rotateSecret none ⟨0, "", 13, "cs_fourth"⟩)

def turns (i : Fin 3) (n : ℕ) : List (Pick (Fin 3) Unit ℕ) := List.replicate n (.call i ())

/-- **A revoked secret comes back, and a new one is gone.**  Call 1 has read the row when call 0
revokes the newest secret, and writes it back with a day's grace.  Call 1 has read the row when call
2 hands out its secret, and writes a list without it. -/
theorem revoked_secret_back :
    (∀ i, (administrators.calls i).isIdle = true) ∧ administrators.shared.revoked = [] ∧
    (∃ w, (calls (Fin 3) lenient).machine.run administrators
        (turns 1 2 ++ turns 0 4 ++ turns 1 2) = some w ∧
      w.calls 0 = .returned (.revokeSecret 11) ∧ 11 ∈ ids w.shared.client.secretHashes ∧
      ¬ Honoured w) ∧
    ∃ w, (calls (Fin 3) lenient).machine.run administrators
        (turns 1 2 ++ turns 2 4 ++ turns 1 2) = some w ∧
      w.calls 2 = .returned (.rotateSecret none ⟨0, "", 13, "cs_fourth"⟩) ∧
      ids w.shared.client.secretHashes = [12, 11] ∧ w.shared.removed = [10, 10] ∧ ¬ Honoured w := by
  refine ⟨by decide, rfl, ⟨_, rfl, rfl, by decide, fun h => ?_⟩, ⟨_, rfl, rfl, rfl, rfl, fun h => ?_⟩⟩
  · exact h.gone 0 11 rfl (by decide)
  · exact absurd (h.kept 2 none ⟨0, "", 13, "cs_fourth"⟩ rfl) (by decide)

/-- One after the other: the revoked secret is gone, and so is the first new one only once the second
rotation has read and dropped it. -/
theorem secrets_honoured_inTurn :
    ∃ w, (calls (Fin 3) lenient).machine.run administrators
        (turns 0 4 ++ turns 1 4 ++ turns 2 4) = some w ∧
      ids w.shared.client.secretHashes = [13, 12] ∧ Honoured w :=
  ⟨_, rfl, rfl, secrets_honoured (by decide) rfl
    (show (calls (Fin 3) lenient).machine.Meets FreshWrites administrators
      (turns 0 4 ++ turns 1 4 ++ turns 2 4) by decide) rfl⟩

end Ridm.Clients
