import Mathlib.Data.Fin.VecNotation
import Mathlib.Data.Fintype.Basic
import Ridm.Keys.Steps

/-!
# What maintenance revokes

`maintain` decides on a listing, and revokes one key after the other with an `UPDATE` by id.  The key
may not be what the listing showed: a replica shows a key as retiring that has long been activated
again, and a key that was past its overlap when it was listed may be activated, retired anew or revoked
before its turn comes (`maintain_revokes_active`).

`maintain_revokes_expired` says what it takes: the listing is `Current`, and no other call touches a key
that is still to be revoked, unless to leave it past its overlap.
-/

namespace Ridm.Keys

variable {ι : Type} {policy : KeyPolicy}

/-- The listing of `maintain` is right about the keys that it shows as past their overlap. -/
def Current (g : Store) : Task → Choice → Prop
  | .sweeping now, .reads behind => ∀ t ∈ g.snapshot behind, ∀ k ∈ t.rows, k.PastOverlap now →
      ∃ row ∈ g.table.rows, row.id = k.id ∧ row.PastOverlap g.now
  | _, _ => True

instance (g : Store) (l : Task) (k : Choice) : Decidable (Current g l k) := by
  unfold Current
  split <;> infer_instance

/-- An update leaves a key past its overlap. -/
def Change.Expires (c : Change) (now : Instant) : Prop :=
  c.status = .retiring ∧ c.expiresAt.any (· ≤ now) = true

instance (c : Change) (now : Instant) : Decidable (c.Expires now) := instDecidableAnd

/-- The listing of `maintain` is right, and what one call writes is not about the keys that another is
about to revoke, unless it leaves them past their overlap. -/
def Undisturbed (w : Pool ι Store Task) : Pick ι Choice Env → Prop
  | .env _ => True
  | .call i k => Current w.shared (w.calls i) k ∧ ∀ j, j ≠ i → ∀ c ∈ (w.calls i).writes,
      c.id ∈ (w.calls j).pending → c.Expires w.shared.now

instance [Fintype ι] [DecidableEq ι] (w : Pool ι Store Task) (p : Pick ι Choice Env) :
    Decidable (Undisturbed w p) := by
  cases p <;> (unfold Undisturbed; infer_instance)

/-- A key is there, and past its overlap. -/
def Store.IsPast (g : Store) (id : Uuid) : Prop :=
  ∃ k ∈ g.table.rows, k.id = id ∧ k.PastOverlap g.now

/-! ## What is pending -/

/-- What a call is about to revoke, it may, and is about to revoke once. -/
structure Store.Allows (g : Store) (l : Task) : Prop where
  past : ∀ id ∈ l.pending, g.IsPast id
  nodup : l.pending.Nodup

section Lemmas

variable {g g' : Store} {l l' : Task} {t : KeyTable} {changes : List Change} {id : Uuid} {c : Change}
  {now : Instant}

lemma Change.Expires.apply {k : SigningKey} (hc : c.Expires now) (hid : c.id = k.id) :
    (c.apply k).PastOverlap now := by
  obtain ⟨hstatus, hexp⟩ := hc
  obtain ⟨e, he, hle⟩ := (Option.any_eq_true _ _).mp hexp
  rw [Change.apply_of_eq hid.symm]
  refine ⟨hstatus, SigningKey.isExpired_iff.mpr ⟨e, ?_, by simpa using hle⟩⟩
  show (c.expiresAt <|> k.expiresAt) = some e
  rw [he]
  rfl

lemma Store.IsPast.commit (h : g.IsPast id) (ht : g.table.setAll changes = some t)
    (hc : ∀ c ∈ changes, c.id = id → c.Expires g.now) : (g.commit changes t).IsPast id := by
  obtain ⟨k, hk, rfl, hpast⟩ := h
  obtain ⟨k', hk', hid, -, hpast'⟩ := KeyTable.setAll_keeps (P := fun k => k.PastOverlap g.now) ht hk
    hpast fun c hmem hid k' hk' _ => (hc c hmem hid).apply (hid.trans hk'.symm)
  exact ⟨k', hk', hid, hpast'⟩

lemma Store.IsPast.insert {key : SigningKey} (h : g.IsPast id) (ht : g.table.insert key = some t) :
    (g.commit [] t).IsPast id := by
  obtain ⟨k, hk, hid, hpast⟩ := h
  exact ⟨k, KeyTable.mem_insert ht hk, hid, hpast⟩

lemma env_keeps {e : Env} (h : env g e = some g') :
    g'.table = g.table ∧ g.now ≤ g'.now ∧ g'.revocations = g.revocations := by
  cases e with
  | tick d =>
      cases h
      exact ⟨rfl, Int.le_add_of_nonneg_right (Int.natCast_nonneg d), rfl⟩
  | sign alg exp =>
      obtain ⟨key, -, h⟩ := Option.bind_eq_some_iff.mp h
      cases h
      exact ⟨rfl, Int.le_refl _, rfl⟩

lemma Store.IsPast.env {e : Env} (h : g.IsPast id) (hstep : env g e = some g') : g'.IsPast id := by
  obtain ⟨htable, hnow, -⟩ := env_keeps hstep
  obtain ⟨row, hrow, hid, hpast⟩ := h
  exact ⟨row, htable ▸ hrow, hid, hpast.mono hnow⟩

lemma Store.Allows.of_nil (h : l.pending = []) : g.Allows l := by
  refine ⟨fun id hid => ?_, ?_⟩
  · rw [h] at hid
    exact absurd hid List.not_mem_nil
  · rw [h]
    exact List.nodup_nil

lemma Store.Allows.imp (h : g.Allows l) (himp : ∀ id ∈ l.pending, g.IsPast id → g'.IsPast id) :
    g'.Allows l := ⟨fun id hid => himp id hid (h.past id hid), h.nodup⟩

lemma Store.Allows.own_writes (h : g.Allows l) (hc : c ∈ l.writes) : c.id ∉ l.pending.tail := by
  cases l with
  | revokingAt now at' id ids =>
      obtain rfl := List.mem_singleton.mp hc
      exact (List.nodup_cons.mp h.nodup).1
  | activating | retiring => exact List.not_mem_nil
  | _ => cases hc

lemma Store.Allows.listed {behind : ℕ} (hcurrent : Current g (.sweeping now) (.reads behind))
    (ht : g.snapshot behind = some t) : g.Allows (.revoking now
      (((t.list (some .retiring)).filter fun key => key.isExpired now).map SigningKey.id)) := by
  refine ⟨fun id hid => ?_, (t.nodup_list _).sublist (List.filter_sublist.map _)⟩
  obtain ⟨key, hkey, rfl⟩ := List.mem_map.mp hid
  obtain ⟨hlist, hexp⟩ := List.mem_filter.mp hkey
  obtain ⟨hrow, hstatus⟩ := KeyTable.mem_list.mp hlist
  exact hcurrent t ht key hrow ⟨hstatus, hexp⟩

lemma Store.Allows.effect {k : Choice} (h : g.Allows l) (hcurrent : Current g l k)
    (heff : Effect g l k g' l') : g'.Allows l' := by
  cases heff with
  | quiet l' hpending =>
      rcases hpending with hnil | hsame
      · exact .of_nil hnil
      · exact ⟨hsame ▸ h.past, hsame ▸ h.nodup⟩
  | inserted key t l' ht hpending => exact .of_nil hpending
  | committed t l' ht hpending =>
      refine ⟨fun id hid => ?_, hpending ▸ h.nodup.sublist (List.tail_sublist _)⟩
      rw [hpending] at hid
      refine (h.past id (List.mem_of_mem_tail hid)).commit ht ?_
      rintro c hc rfl
      exact absurd hid (h.own_writes hc)
  | listed now behind t hl hk ht =>
      subst hl hk
      exact .listed hcurrent ht

lemma Store.Allows.other {m : Task} {k : Choice} (h : g.Allows m) (heff : Effect g l k g' l')
    (hother : ∀ c ∈ l.writes, c.id ∈ m.pending → c.Expires g.now) : g'.Allows m := by
  cases heff with
  | quiet | listed => exact h
  | inserted key t l' ht => exact h.imp fun id _ hpast => hpast.insert ht
  | committed t l' ht =>
      refine h.imp fun id hid hpast => hpast.commit ht ?_
      rintro c hc rfl
      exact hother c hc hid

/-- **What is revoked** was pending, so it was past its overlap. -/
lemma Store.Allows.revoked {k : Choice} (h : g.Allows l) (heff : Effect g l k g' l')
    (hbefore : ∀ r ∈ g.revocations, r.key.PastOverlap r.at') :
    ∀ r ∈ g'.revocations, r.key.PastOverlap r.at' := by
  cases heff with
  | quiet | listed => exact hbefore
  | inserted => exact hbefore
  | committed t l' ht =>
      intro r hr
      rcases List.mem_append.mp hr with hnew | hold
      · obtain ⟨c, hc, hr⟩ := List.mem_filterMap.mp hnew
        split_ifs at hr with hrevoked
        obtain ⟨key, hkey, rfl⟩ := Option.map_eq_some_iff.mp hr
        obtain ⟨hmem, hid⟩ := KeyTable.findById_eq_some.mp hkey
        obtain ⟨key', hkey', hid', hpast⟩ := h.past c.id (pending_of_revoked hc hrevoked)
        rwa [KeyTable.eq_of_id_eq hmem hkey' (hid.trans hid'.symm)]
      · exact hbefore r hold

end Lemmas

lemma Store.Allows.of_start {g : Store} {l : Task} (h : l.isStart = true) : g.Allows l := by
  cases l <;> first | exact .of_nil rfl | cases h

/-! ## Runs -/

section Runs

variable [DecidableEq ι] {w w' : Pool ι Store Task} {as : List (Pick ι Choice Env)}

lemma allows_step {i : ι} {k : Choice} {g' : Store} {l' : Task}
    (h : ∀ j, w.shared.Allows (w.calls j)) (hC : Undisturbed w (.call i k))
    (heff : Effect w.shared (w.calls i) k g' l') :
    ∀ j, (w.next i g' l').shared.Allows ((w.next i g' l').calls j) :=
  Pool.next_forall (p := fun _ => g'.Allows) ((h i).effect hC.1 heff) fun j hj =>
    (h j).other heff (hC.2 j hj)

omit [DecidableEq ι] in
lemma allows_env {e : Env} {g' : Store} (h : ∀ j, w.shared.Allows (w.calls j))
    (hstep : env w.shared e = some g') (j : ι) : g'.Allows (w.calls j) :=
  (h j).imp fun _ _ hpast => hpast.env hstep

/-- **Maintenance revokes only expired retiring keys**, in every run in which its listings are current
and no other call disturbs what it is about to revoke: at the moment it is revoked, a key is retiring,
and its overlap is over. -/
theorem maintain_revokes_expired (policy : KeyPolicy) (hstart : ∀ i, (w.calls i).isStart = true)
    (hnone : w.shared.revocations = []) (hmeets : (calls ι policy).machine.Meets Undisturbed w as)
    (hrun : (calls ι policy).machine.run w as = some w') :
    ∀ r ∈ w'.shared.revocations, r.key.PastOverlap r.at' := by
  refine (Calls.run_inv (I := fun w => (∀ i, w.shared.Allows (w.calls i)) ∧
    ∀ r ∈ w.shared.revocations, r.key.PastOverlap r.at') ?_ ?_ hmeets hrun ⟨fun i => ?_, ?_⟩).2
  · rintro w i k g l ⟨hallows, hbefore⟩ hC hstep
    have heff := act_effect hstep
    exact ⟨allows_step hallows hC heff, (hallows i).revoked heff hbefore⟩
  · rintro w e g ⟨hallows, hbefore⟩ - hstep
    have hallows' : ∀ i, g.Allows (w.calls i) := allows_env hallows hstep
    exact ⟨hallows', (env_keeps hstep).2.2 ▸ hbefore⟩
  · exact .of_start (hstart i)
  · rw [hnone]
    exact fun r hr => absurd hr List.not_mem_nil

end Runs

/-! ## A key activated again -/

def pastKey : SigningKey where
  id := 1
  kid := "a"
  alg := .rs256
  status := .retiring
  notBefore := 0
  expiresAt := some (seconds 10)
  createdAt := 0

def dayPolicy : KeyPolicy := ⟨.rs256, 0, 24⟩

def pastPool : Pool (Fin 2) Store Task :=
  ⟨⟨seconds 20, ⟨[pastKey], by decide⟩, [], [], []⟩, ![.maintain, .activate 1]⟩

def activatedBetween : List (Pick (Fin 2) Choice Env) :=
  [.call 0 .go, .call 0 (.reads 0), .call 1 .go, .call 1 .go, .call 1 .go, .call 1 .go,
    .call 0 .go, .call 0 .go]

def revokedAlone : List (Pick (Fin 2) Choice Env) :=
  [.call 0 .go, .call 0 (.reads 0), .call 0 .go, .env (.tick 5), .call 0 .go, .call 1 .go]

theorem maintain_revokes_expired_alone :
    ∃ w', (calls (Fin 2) dayPolicy).machine.run pastPool revokedAlone = some w' ∧
      w'.shared.revocations.length = 1 ∧ ∀ r ∈ w'.shared.revocations, r.key.PastOverlap r.at' := by
  have hany : ((calls (Fin 2) dayPolicy).machine.run pastPool revokedAlone).any
      (fun w => w.shared.revocations.length == 1) = true := by decide +kernel
  obtain ⟨w', hrun, hlen⟩ := Machine.exists_run_of_any hany
  exact ⟨w', hrun, by simpa using hlen,
    maintain_revokes_expired dayPolicy (by decide) rfl (by decide +kernel) hrun⟩

/-- **Maintenance revokes the active key**: it was past its overlap when it was listed, and has been
activated again since. -/
theorem maintain_revokes_active :
    ¬ ∀ (policy : KeyPolicy) (w w' : Pool (Fin 2) Store Task) (as : List (Pick (Fin 2) Choice Env)),
      (∀ i, (w.calls i).isStart = true) → w.shared.revocations = [] →
      (calls (Fin 2) policy).machine.run w as = some w' →
      ∀ r ∈ w'.shared.revocations, r.key.PastOverlap r.at' := by
  intro h
  have hany : ((calls (Fin 2) dayPolicy).machine.run pastPool activatedBetween).any
      (fun w => w.shared.revocations.any fun r => r.key.status == .active) = true := by decide +kernel
  obtain ⟨w', hrun, hactive⟩ := Machine.exists_run_of_any hany
  obtain ⟨r, hr, hstatus⟩ := List.any_eq_true.mp hactive
  have hpast := h dayPolicy pastPool w' activatedBetween (by decide) rfl hrun r hr
  rw [beq_iff_eq, hpast.1] at hstatus
  cases hstatus

end Ridm.Keys
