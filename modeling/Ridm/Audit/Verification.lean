import Ridm.Audit.Model
import Ridm.Lib.Interleaving

/-!
# What verification finds

Walks over rows that do not change meanwhile.

**An honest chain verifies.**  `History` is the invariant: behind the stored rows stands the list
of all rows ever appended, linked and sound; the rows are a final piece of it, the head kept in
`audit_chains` is its last row, and a checkpoint is one of its rows.  Appends, purges and passes
keep it (`chainMachine_step`), and from it both the full walk and the scheduled one report no
break (`honest_chain_verifies`).
-/

namespace Ridm.Audit

open NumberedLog

/-- The rows of the store, in the order they were appended, have growing numbers. -/
def Ordered (rows : List AuditEvent) : Prop := Increasing (fun r : AuditEvent => r.seq) rows

/-! ## Pages -/

variable {rows : List AuditEvent}

lemma orderBySeq_eq (h : Ordered rows) : orderBySeq rows = rows := by
  refine List.Pairwise.insertionSort_eq (List.Pairwise.imp ?_ h)
  intro a b hab
  exact Int.le_of_lt hab

/-- The rows a walk still has in front of it. -/
def rowsAfter (s : ChainStore) (after : Option ℤ) : List AuditEvent :=
  s.rows.filter fun r => after.all (· < r.seq)

variable {P : Primitives} {chain : Uuid128} {s : ChainStore} {all : List AuditEvent}

lemma chainPage_eq (h : Ordered s.rows) (after : Option ℤ) (limit : ℕ) :
    chainPage s after limit = (rowsAfter s after).take limit := by
  rw [chainPage, orderBySeq_eq (h.filter _)]
  rfl

@[simp] lemma rowsAfter_none (s : ChainStore) : rowsAfter s none = s.rows := by
  simp [rowsAfter]

lemma rowsAfter_some (s : ChainStore) (n : ℤ) :
    rowsAfter s (some n) = s.rows.filter (fun r => decide (n < r.seq)) := by
  simp [rowsAfter]

lemma rowsAfter_eq_drop (h : Ordered s.rows) (after : Option ℤ) :
    ∃ k, rowsAfter s after = s.rows.drop k := by
  cases after with
  | none => exact ⟨0, by simp⟩
  | some n => exact ⟨_, by rw [rowsAfter_some, h.filter_gt]⟩

variable {tenantId : Option Uuid128} {a b : List AuditEvent} {r : AuditEvent} {c : ChainEntry}

lemma rowsAfter_of_mem (h : Ordered s.rows) {after : Option ℤ}
    (hsplit : rowsAfter s after = a ++ r :: b) :
    rowsAfter s (some r.seq) = b := by
  obtain ⟨k, hk⟩ := rowsAfter_eq_drop h after
  have hrows : s.rows = (s.rows.take k ++ a) ++ r :: b := by
    rw [List.append_assoc, ← hsplit, hk, List.take_append_drop]
  rw [Ordered, hrows] at h
  rw [rowsAfter_some, hrows]
  exact h.filter_above

/-! ## A walk over rows that do not change -/

/-- What a walk reports of the rows in front of it, read at once. -/
def walkAll (P : Primitives) (w : WalkState) (rows : List AuditEvent) : Walk :=
  ⟨(checkRows P w.verifier rows).1, (checkRows P w.verifier rows).2⟩

lemma walkPage_last (P : Primitives) (w : WalkState)
    (h : rows.length < exportPage) : walkPage P w rows = .inr (walkAll P w rows) := by
  rw [walkPage, walkAll]
  cases hc : checkRows P w.verifier rows with
  | mk v b =>
      cases b with
      | none => simp [h]
      | some b => rfl

lemma walkPage_broken (P : Primitives) (w : WalkState)
    (h : (checkRows P w.verifier rows).2 ≠ none) :
    walkPage P w rows = .inr (walkAll P w rows) := by
  rw [walkPage, walkAll]
  cases hc : checkRows P w.verifier rows with
  | mk v b =>
      cases b with
      | none => simp [hc] at h
      | some b => rfl

lemma walkPage_next (P : Primitives) (w : WalkState)
    (hlen : ¬ rows.length < exportPage) (h : (checkRows P w.verifier rows).2 = none) :
    walkPage P w rows = .inl ⟨(checkRows P w.verifier rows).1, rows.getLast?.map (·.seq)⟩ := by
  rw [walkPage]
  cases hc : checkRows P w.verifier rows with
  | mk v b =>
      rw [hc] at h
      subst h
      simp [hlen]

/-- **The pages of a walk add up.**  With enough turns, a walk reports what checking all the rows
in front of it at once reports. -/
theorem walkLoop_eq (P : Primitives) (h : Ordered s.rows) :
    ∀ (fuel : ℕ) (w : WalkState), (rowsAfter s w.after).length < exportPage * fuel →
      walkLoop P s fuel w = some (walkAll P w (rowsAfter s w.after)) := by
  intro fuel
  induction fuel with
  | zero =>
      intro w hw
      omega
  | succ fuel ih =>
      intro w hw
      rw [walkLoop, chainPage_eq h]
      by_cases hlast : (rowsAfter s w.after).length < exportPage
      · rw [List.take_of_length_le (by omega), walkPage_last P w hlast]
      · have hpage : ((rowsAfter s w.after).take exportPage).length = exportPage := by
          rw [List.length_take]
          omega
        have hcut := List.take_append_drop exportPage (rowsAfter s w.after)
        by_cases hbroken : (checkRows P w.verifier ((rowsAfter s w.after).take exportPage)).2 = none
        · -- a full page without a break: the walk goes on behind its last row
          rw [walkPage_next P w (by omega) hbroken]
          obtain ⟨a, r, har⟩ : ∃ a r, (rowsAfter s w.after).take exportPage = a ++ [r] := by
            have hne : (rowsAfter s w.after).take exportPage ≠ [] := by
              intro hnil
              rw [hnil] at hpage
              simp [exportPage] at hpage
            exact ⟨_, _, (List.dropLast_append_getLast hne).symm⟩
          have hrest : rowsAfter s (some r.seq) = (rowsAfter s w.after).drop exportPage := by
            have hsplit : rowsAfter s w.after =
                a ++ r :: (rowsAfter s w.after).drop exportPage := by
              rw [har, List.append_assoc] at hcut
              exact hcut.symm
            exact rowsAfter_of_mem h hsplit
          have hseq : ((rowsAfter s w.after).take exportPage).getLast?.map (·.seq) = some r.seq := by
            rw [har]
            simp
          simp only [hseq]
          rw [ih _ (by
            simp only [hrest, List.length_drop]
            rw [Nat.mul_succ] at hw
            omega)]
          simp only [hrest, walkAll]
          rw [← checkRows_append P w.verifier _ _ hbroken, hcut]
        · -- a break within the page ends the walk
          rw [walkPage_broken P w hbroken]
          have hall := checkRows_append_broken P w.verifier _
            ((rowsAfter s w.after).drop exportPage) hbroken
          rw [hcut] at hall
          simp only [walkAll, hall]

/-- `walk` reports what checking the rows in front of it at once reports. -/
theorem walk_eq (P : Primitives) (h : Ordered s.rows) (chain : Uuid128)
    (start : Option (ℤ × Bytes)) :
    walk P s chain start = some (walkAll P (WalkState.start chain start)
      (rowsAfter s (WalkState.start chain start).after)) := by
  refine walkLoop_eq P h _ _ ?_
  have hle : (rowsAfter s (WalkState.start chain start).after).length ≤ s.rows.length :=
    List.length_filter_le _ _
  show (rowsAfter s (WalkState.start chain start).after).length < 500 * (s.rows.length + 1)
  omega

/-! ## The rows ever appended -/

/-- Rows of one chain, each sound and each linked to the one before it. -/
structure HonestRows (P : Primitives) (chain : Uuid128) (rows : List AuditEvent) : Prop where
  linked : Linked rows
  sound : ∀ r ∈ rows, r.Sound P
  ofChain : ∀ r ∈ rows, chainId r.tenantId = chain

namespace HonestRows

variable {P : Primitives} {chain : Uuid128} {rows : List AuditEvent}

lemma nil : HonestRows P chain [] where
  linked := .nil
  sound := fun _ hr => absurd hr List.not_mem_nil
  ofChain := fun _ hr => absurd hr List.not_mem_nil

lemma ordered (h : HonestRows P chain rows) : Ordered rows := h.linked.increasing

lemma drop (h : HonestRows P chain rows) (k : ℕ) : HonestRows P chain (rows.drop k) where
  linked := List.IsChain.drop h.linked k
  sound := fun r hr => h.sound r (List.mem_of_mem_drop hr)
  ofChain := fun r hr => h.ofChain r (List.mem_of_mem_drop hr)

lemma take (h : HonestRows P chain rows) (k : ℕ) : HonestRows P chain (rows.take k) where
  linked := List.IsChain.take h.linked k
  sound := fun r hr => h.sound r (List.mem_of_mem_take hr)
  ofChain := fun r hr => h.ofChain r (List.mem_of_mem_take hr)

lemma accepted (h : HonestRows P chain rows) {c : Option Uuid128} {p : Option (ℤ × Bytes)}
    (hc : ∀ x ∈ c, x = chain) (hp : ∀ r ∈ rows.head?, ∀ q ∈ p, r.FollowsOn q) :
    Accepted P c p rows := by
  induction rows generalizing c p with
  | nil => trivial
  | cons r rows ih =>
      have hr := h.ofChain r List.mem_cons_self
      refine ⟨fun x hx => by rw [hc x hx, hr], hp r rfl, h.sound r List.mem_cons_self, ?_⟩
      refine ih (h.drop 1) ?_ ?_
      · intro x hx
        cases hx
        exact hr
      · intro r' hr' q hq
        cases hq
        cases rows with
        | nil => cases hr'
        | cons x rows =>
            cases hr'
            exact (List.isChain_cons_cons.mp h.linked).1

lemma accepted_fresh (h : HonestRows P chain rows) : Accepted P none none rows :=
  h.accepted (fun _ hx => absurd hx (Option.not_mem_none _))
    (fun _ _ _ hq => absurd hq (Option.not_mem_none _))

lemma accepted_after
    (h : HonestRows P chain (a ++ r :: b)) : Accepted P (some chain) (some (r.seq, r.hash)) b := by
  have hrb : HonestRows P chain (r :: b) := by
    have := h.drop a.length
    rwa [List.drop_left] at this
  have hacc := hrb.accepted_fresh.2.2.2
  rwa [hrb.ofChain r List.mem_cons_self] at hacc

end HonestRows

/-- What stands behind a chain that nobody tampered with: the list of all rows ever appended.
The stored rows are what retention left of it, the head is its last row, and the checkpoint is one
of its rows. -/
structure History (P : Primitives) (chain : Uuid128) (s : ChainStore)
    (all : List AuditEvent) : Prop where
  honest : HonestRows P chain all
  retained : ∃ k ≤ all.length, s.rows = all.drop k
  head : s.entry.map (fun e => (e.headSeq, e.headHash)) =
    all.getLast?.map (fun r => (r.seq, r.hash))
  verified : ∀ e ∈ s.entry, (e.verifiedSeq = none ∧ e.verifiedHash = none) ∨
    ∃ r ∈ all, e.verifiedSeq = some r.seq ∧ e.verifiedHash = some r.hash
  notBroken : ∀ e ∈ s.entry, e.brokenAtSeq = none

namespace History

variable {P : Primitives} {chain : Uuid128} {s : ChainStore} {all : List AuditEvent}

lemma rows_honest (h : History P chain s all) : HonestRows P chain s.rows := by
  obtain ⟨k, -, hk⟩ := h.retained
  rw [hk]
  exact h.honest.drop k

lemma rows_subset (h : History P chain s all) : ∀ r ∈ s.rows, r ∈ all := by
  obtain ⟨k, -, hk⟩ := h.retained
  intro r hr
  rw [hk] at hr
  exact List.mem_of_mem_drop hr

lemma all_of_no_entry (h : History P chain s all) (he : s.entry = none) : all = [] := by
  have hhead := h.head
  rwa [he, Option.map_none, eq_comm, Option.map_eq_none_iff, List.getLast?_eq_none_iff] at hhead

lemma rows_of_no_entry (h : History P chain s all) (he : s.entry = none) : s.rows = [] := by
  obtain ⟨k, -, hk⟩ := h.retained
  rw [hk, h.all_of_no_entry he, List.drop_nil]

lemma getLast?_rows (h : History P chain s all)
    (hr : s.rows.getLast? = some r) : all.getLast? = some r := by
  obtain ⟨k, -, hk⟩ := h.retained
  rw [← List.take_append_drop k all, List.getLast?_append, ← hk, hr]
  rfl

lemma currentHead_eq (h : History P chain s all) :
    currentHead s = all.getLast?.map fun r => (r.seq, r.hash) := by
  have hhead := h.head
  cases he : s.entry with
  | some e =>
      rw [he] at hhead
      rw [currentHead, he]
      exact hhead
  | none =>
      -- no entry: nothing was ever appended, and there are no rows to read either
      rw [currentHead, he, h.all_of_no_entry he]
      simp [chainHead, h.rows_of_no_entry he, orderBySeq]

end History

/-! ## Appends -/

lemma chainRow_followsOn (P : Primitives) (event : Event) (p : ℤ × Bytes) :
    (chainRow P event (some p)).FollowsOn p := ⟨rfl, rfl⟩

lemma chainRow_sound (P : Primitives) (event : Event) (prev : Option (ℤ × Bytes)) :
    (chainRow P event prev).Sound P := rfl

lemma chainRow_tenantId (P : Primitives) (event : Event) (prev : Option (ℤ × Bytes)) :
    (chainRow P event prev).tenantId = event.tenantId := rfl

lemma chainRows_honest (P : Primitives) (tenantId : Option Uuid128) :
    ∀ (events : List Event) (head : Option (ℤ × Bytes)), (∀ e ∈ events, e.tenantId = tenantId) →
      HonestRows P (chainId tenantId) (chainRows P head events) ∧
        ∀ r ∈ (chainRows P head events).head?, ∀ p ∈ head, r.FollowsOn p := by
  intro events
  induction events with
  | nil =>
      intro head _
      exact ⟨HonestRows.nil, fun _ hr => absurd hr (Option.not_mem_none _)⟩
  | cons event events ih =>
      intro head hof
      have hrow := chainRow_sound P event head
      have htenant := chainRow_tenantId P event head
      obtain ⟨hrest, hfirst⟩ := ih (some ((chainRow P event head).seq, (chainRow P event head).hash))
        (fun e he => hof e (List.mem_cons_of_mem _ he))
      constructor
      · refine ⟨?_, ?_, ?_⟩
        · refine List.IsChain.cons hrest.linked ?_
          intro r hr
          exact hfirst r hr _ rfl
        · intro r hr
          rcases List.mem_cons.mp hr with rfl | hr
          · exact hrow
          · exact hrest.sound r hr
        · intro r hr
          rcases List.mem_cons.mp hr with rfl | hr
          · rw [htenant, hof event List.mem_cons_self]
          · exact hrest.ofChain r hr
      · intro r hr p hp
        cases hr
        cases hp
        exact chainRow_followsOn P event p

lemma HonestRows.append (ha : HonestRows P chain a) (hb : HonestRows P chain b)
    (hlink : ∀ r ∈ b.head?, ∀ x ∈ a.getLast?, r.FollowsOn (x.seq, x.hash)) :
    HonestRows P chain (a ++ b) where
  linked := List.IsChain.append ha.linked hb.linked (fun x hx r hr => hlink r hr x hx)
  sound := by
    intro r hr
    rcases List.mem_append.mp hr with hr | hr
    · exact ha.sound r hr
    · exact hb.sound r hr
  ofChain := by
    intro r hr
    rcases List.mem_append.mp hr with hr | hr
    · exact ha.ofChain r hr
    · exact hb.ofChain r hr

lemma HonestRows.lt_getLast
    (h : HonestRows P chain (a ++ b)) {x r : AuditEvent} (hx : x ∈ a) (hr : r ∈ b) :
    x.seq < r.seq :=
  (List.pairwise_append.mp h.ordered).2.2 x hx r hr

/-- **An append keeps the history**, longer by its rows. -/
lemma History.record (h : History P (chainId tenantId) s all) {events : List Event}
    (hof : ∀ e ∈ events, e.tenantId = tenantId) :
    History P (chainId tenantId) (recordChain P s events)
      (all ++ chainRows P (currentHead s) events) := by
  obtain ⟨hnew, hfirst⟩ := chainRows_honest P tenantId events (currentHead s) hof
  have hall : HonestRows P (chainId tenantId) (all ++ chainRows P (currentHead s) events) := by
    refine h.honest.append hnew ?_
    intro r hr x hx
    refine hfirst r hr _ ?_
    rw [h.currentHead_eq, Option.mem_def.mp hx]
    rfl
  obtain ⟨k, hk, hrows⟩ := h.retained
  have hretained : ∃ j ≤ (all ++ chainRows P (currentHead s) events).length,
      s.rows ++ chainRows P (currentHead s) events =
        (all ++ chainRows P (currentHead s) events).drop j := by
    refine ⟨k, ?_, ?_⟩
    · rw [List.length_append]
      omega
    · rw [hrows, List.drop_append_of_le_length hk]
  generalize hnewRows : chainRows P (currentHead s) events = new at *
  unfold recordChain
  simp only [hnewRows]
  cases hlast : new.getLast? with
  | none =>
      rw [List.getLast?_eq_none_iff] at hlast
      subst hlast
      simp only [List.append_nil] at hretained ⊢
      exact ⟨h.honest, hretained, h.head, h.verified, h.notBroken⟩
  | some last =>
      obtain ⟨first, hhead⟩ : ∃ first, new.head? = some first := by
        cases new with
        | nil => simp at hlast
        | cons first new => exact ⟨first, rfl⟩
      have hlastAll : (all ++ new).getLast? = some last := by
        rw [List.getLast?_append, hlast]
        rfl
      simp only [hhead]
      cases he : s.entry with
      | none =>
          simp only [advanceHead]
          refine ⟨hall, hretained, ?_, ?_, ?_⟩
          · rw [hlastAll]
            rfl
          · intro e he'
            cases he'
            exact .inl ⟨rfl, rfl⟩
          · intro e he'
            cases he'
            rfl
      | some e =>
          -- the head moves: the last new row has a higher number than the head before
          have hlt : e.headSeq < last.seq := by
            have hhead' := h.head
            rw [he, Option.map_some] at hhead'
            cases hold : all.getLast? with
            | none => simp [hold] at hhead'
            | some x =>
                rw [hold, Option.map_some, Option.some.injEq, Prod.mk.injEq] at hhead'
                rw [hhead'.1]
                exact hall.lt_getLast (List.mem_of_getLast? hold) (List.mem_of_getLast? hlast)
          simp only [advanceHead, if_pos hlt]
          refine ⟨hall, hretained, ?_, ?_, ?_⟩
          · rw [hlastAll]
            rfl
          · intro e' he'
            cases he'
            rcases h.verified e he with hnone | ⟨r, hr, hseq, hhash⟩
            · exact .inl hnone
            · exact .inr ⟨r, List.mem_append_left _ hr, hseq, hhash⟩
          · intro e' he'
            cases he'
            exact h.notBroken e he

/-! ## Retention -/

lemma purgePrefix_eq_drop (h : Ordered s.rows) (upTo : ℤ) (batch : ℕ) :
    ∃ k ≤ s.rows.length, (purgePrefix s upTo batch).rows = s.rows.drop k := by
  have hle := h.filter_le upTo
  generalize hn : (s.rows.filter (fun r => decide (r.seq ≤ upTo))).length = n at hle
  have hexp : expiredRows s upTo batch = s.rows.take (min batch n) := by
    rw [expiredRows, orderBySeq_eq (h.filter _), hle, List.take_take]
  refine ⟨min batch n, ?_, ?_⟩
  · have : n ≤ s.rows.length := by
      rw [← hn]
      exact List.length_filter_le _ _
    omega
  · rw [purgePrefix, hexp]
    exact filter_notMem_take h.nodup _

lemma History.purgePrefix (h : History P chain s all) (upTo : ℤ) (batch : ℕ) :
    History P chain (purgePrefix s upTo batch) all := by
  obtain ⟨k, hk, hrows⟩ := h.retained
  obtain ⟨j, hj, hdrop⟩ := purgePrefix_eq_drop h.rows_honest.ordered upTo batch
  refine ⟨h.honest, ⟨k + j, ?_, ?_⟩, h.head, h.verified, h.notBroken⟩
  · rw [hrows, List.length_drop] at hj
    omega
  · rw [hdrop, hrows, List.drop_drop]

lemma History.purgeLoop (upTo : ℤ) :
    ∀ (fuel : ℕ) {s : ChainStore}, History P chain s all →
      History P chain (purgeLoop upTo fuel s) all := by
  intro fuel
  induction fuel with
  | zero =>
      intro s h
      exact h
  | succ fuel ih =>
      intro s h
      rw [Audit.purgeLoop]
      split_ifs
      · exact h.purgePrefix upTo purgeBatch
      · exact ih (h.purgePrefix upTo purgeBatch)

lemma History.setOldest (h : History P chain s all) (t : Option Instant) :
    History P chain (setOldest s t) all := by
  have hent : ∀ e ∈ (Audit.setOldest s t).entry, ∃ e' ∈ s.entry,
      e.headSeq = e'.headSeq ∧ e.headHash = e'.headHash ∧ e.verifiedSeq = e'.verifiedSeq ∧
        e.verifiedHash = e'.verifiedHash ∧ e.brokenAtSeq = e'.brokenAtSeq := by
    intro e he
    simp only [Audit.setOldest, Option.mem_def, Option.map_eq_some_iff] at he
    obtain ⟨e', he', rfl⟩ := he
    exact ⟨e', he', rfl, rfl, rfl, rfl, rfl⟩
  refine ⟨h.honest, h.retained, ?_, ?_, ?_⟩
  · rw [← h.head]
    cases he : s.entry with
    | none => simp [Audit.setOldest, he]
    | some e => simp [Audit.setOldest, he]
  · intro e he
    obtain ⟨e', he', -, -, hseq, hhash, -⟩ := hent e he
    rw [hseq, hhash]
    exact h.verified e' he'
  · intro e he
    obtain ⟨e', he', -, -, -, -, hbroken⟩ := hent e he
    rw [hbroken]
    exact h.notBroken e' he'

/-- **Retention keeps the history.** -/
lemma History.purge (h : History P chain s all) (now : Instant) (days : ℕ) :
    History P chain (purge s now days) all := by
  rw [Audit.purge]
  split_ifs
  · exact h
  · refine History.setOldest ?_ _
    cases expiredHead s (now - seconds (86400 * days)) with
    | none => exact h
    | some upTo => exact History.purgeLoop upTo _ h

/-! ## Passes -/

lemma History.checkpointIntact (h : History P chain s all) (hr : r ∈ all) :
    checkpointIntact P s r.seq r.hash = .purged ∨
      (checkpointIntact P s r.seq r.hash = .intact r.seq r.hash ∧ r ∈ s.rows) := by
  rw [Audit.checkpointIntact]
  cases hpage : (chainPage s (some (r.seq - 1)) 1).head?.filter (·.seq = r.seq) with
  | none => exact .inl rfl
  | some row =>
      right
      rw [Option.filter_eq_some_iff] at hpage
      obtain ⟨hhead, hseq⟩ := hpage
      have hmem : row ∈ s.rows := by
        have := List.mem_of_mem_head? hhead
        rw [chainPage_eq h.rows_honest.ordered, rowsAfter_some] at this
        exact (List.mem_filter.mp (List.mem_of_mem_take this)).1
      -- one number, one row
      have hrow : row = r := h.honest.ordered.eq_of_number (h.rows_subset row hmem) hr
        (by simpa using hseq)
      have hsound : Audit.hash P r.prevHash r.toCanonicalRow = r.hash := h.honest.sound r hr
      subst hrow
      refine ⟨?_, hmem⟩
      simp only [hsound, ne_eq, not_true_eq_false, or_self, if_false]

lemma HonestRows.walk_full (h : HonestRows P chain s.rows) :
    ∃ w, walk P s chain none = some w ∧ w.broken = none ∧
      w.verifier.lastSeq = s.rows.getLast?.map (·.seq) ∧
      w.verifier.lastHash = s.rows.getLast?.map (·.hash) := by
  have hpass : (checkRows P Verifier.new s.rows).2 = none :=
    (accepted_iff P Verifier.new s.rows).mpr h.accepted_fresh
  obtain ⟨-, -, hseq, hhash⟩ := checkRows_passed P Verifier.new s.rows hpass
  refine ⟨_, walk_eq P h.ordered chain none, ?_, ?_, ?_⟩
  · rw [WalkState.start, rowsAfter_none]
    exact hpass
  · rw [WalkState.start, rowsAfter_none]
    exact hseq.trans (by simp [Verifier.new])
  · rw [WalkState.start, rowsAfter_none]
    exact hhash.trans (by simp [Verifier.new])

lemma HonestRows.walk_after (h : HonestRows P chain s.rows) (hsplit : s.rows = a ++ r :: b) :
    ∃ w, walk P s chain (some (r.seq, r.hash)) = some w ∧ w.broken = none ∧
      w.verifier.lastSeq = b.getLast?.map (·.seq) ∧ w.verifier.lastHash = b.getLast?.map (·.hash) := by
  have hfrom : rowsAfter s none = a ++ r :: b := by rw [rowsAfter_none, hsplit]
  have hrest : rowsAfter s (some r.seq) = b := rowsAfter_of_mem h.ordered hfrom
  have hacc : Accepted P (some chain) (some (r.seq, r.hash)) b := by
    rw [hsplit] at h
    exact h.accepted_after
  have hpass : (checkRows P (Verifier.after chain r.seq r.hash) b).2 = none :=
    (accepted_iff P _ b).mpr hacc
  obtain ⟨-, -, hseq, hhash⟩ := checkRows_passed P _ b hpass
  refine ⟨_, walk_eq P h.ordered chain (some (r.seq, r.hash)), ?_, ?_, ?_⟩
  · rw [WalkState.start, hrest]
    exact hpass
  · rw [WalkState.start, hrest]
    exact hseq.trans (by simp [Verifier.after])
  · rw [WalkState.start, hrest]
    exact hhash.trans (by simp [Verifier.after])

/-- The checkpoint of the chain is this row's. -/
def VerifiedAt (s : ChainStore) (r : AuditEvent) : Prop :=
  ∃ e ∈ s.entry, e.verifiedSeq = some r.seq ∧ e.verifiedHash = some r.hash

/-- The checkpoint is at the newest row, when there is one. -/
def VerifiedToEnd (s : ChainStore) : Prop := ∀ r ∈ s.rows.getLast?, VerifiedAt s r

lemma verifiedToEnd_of_empty (h : s.rows.getLast? = none) : VerifiedToEnd s := by
  intro r hr
  rw [h] at hr
  cases hr

/-- The walk of a pass: no break, and it ends at the newest row, or finds nothing behind a
checkpoint that is the newest row already. -/
lemma History.scheduledWalk (h : History P chain s all) (hc : s.entry = some c) :
    ∃ w, scheduledWalk P s chain c = some w ∧ w.broken = none ∧
      ((w.verifier.lastSeq = s.rows.getLast?.map (·.seq) ∧
          w.verifier.lastHash = s.rows.getLast?.map (·.hash)) ∨
        (w.verifier.lastSeq = none ∧ VerifiedToEnd s)) := by
  have hfull := h.rows_honest.walk_full
  rcases h.verified c hc with ⟨hseq, -⟩ | ⟨r, hr, hseq, hhash⟩
  · obtain ⟨w, hw, hbroken, hlast⟩ := hfull
    exact ⟨w, by rw [Audit.scheduledWalk, hseq]; exact hw, hbroken, .inl hlast⟩
  · rw [Audit.scheduledWalk, hseq, hhash, h.notBroken c hc]
    rcases h.checkpointIntact hr with hpurged | ⟨hintact, hmem⟩
    · obtain ⟨w, hw, hbroken, hlast⟩ := hfull
      exact ⟨w, by simp only [hpurged]; exact hw, hbroken, .inl hlast⟩
    · obtain ⟨a, b, hsplit⟩ := List.append_of_mem hmem
      obtain ⟨w, hw, hbroken, hlast⟩ := h.rows_honest.walk_after hsplit
      refine ⟨w, by simp only [hintact]; exact hw, hbroken, ?_⟩
      cases hb : b.getLast? with
      | none =>
          -- nothing stands behind the checkpoint: it is the newest row
          rw [List.getLast?_eq_none_iff] at hb
          subst hb
          right
          refine ⟨by simpa using hlast.1, ?_⟩
          intro x hx
          rw [hsplit, List.getLast?_concat] at hx
          cases hx
          exact ⟨c, hc, hseq, hhash⟩
      | some x =>
          left
          have hlastRow : s.rows.getLast? = b.getLast? := by
            rw [hsplit, List.getLast?_append, List.getLast?_cons, hb]
            rfl
          rw [hlastRow]
          exact hlast

lemma setVerified_history (h : History P chain s all) (hr : r ∈ all) :
    History P chain (setVerified s r.seq r.hash) all := by
  refine ⟨h.honest, h.retained, ?_, ?_, ?_⟩
  · rw [← h.head]
    cases he : s.entry with
    | none => simp [setVerified, he]
    | some e => simp [setVerified, he]
  · intro e he
    simp only [setVerified, Option.mem_def, Option.map_eq_some_iff] at he
    obtain ⟨e', -, rfl⟩ := he
    exact .inr ⟨r, hr, rfl, rfl⟩
  · intro e he
    simp only [setVerified, Option.mem_def, Option.map_eq_some_iff] at he
    obtain ⟨e', -, rfl⟩ := he
    rfl

/-- **A pass over an honest chain** finds no break and leaves the checkpoint at the newest row. -/
lemma History.verifyOne (h : History P chain s all) (hc : s.entry = some c) :
    ∃ s' n, verifyOne P s chain c = some (s', ⟨n, none⟩) ∧ History P chain s' all ∧
      VerifiedToEnd s' := by
  obtain ⟨w, hw, hbroken, hlast⟩ := h.scheduledWalk hc
  rw [Audit.verifyOne, hw, Option.map_some, hbroken]
  rcases hlast with ⟨hseq, hhash⟩ | ⟨hseq, hend⟩
  · cases hr : s.rows.getLast? with
    | none =>
        rw [hr] at hseq hhash
        rw [hseq]
        exact ⟨s, _, rfl, h, verifiedToEnd_of_empty hr⟩
    | some r =>
        rw [hr] at hseq hhash
        rw [hseq, hhash]
        refine ⟨setVerified s r.seq r.hash, _, rfl,
          setVerified_history h (h.rows_subset r (List.mem_of_getLast? hr)), ?_⟩
        intro x hx
        have hx' : s.rows.getLast? = some x := hx
        rw [hr] at hx'
        cases hx'
        exact ⟨{ c with
          verifiedSeq := some r.seq
          verifiedHash := some r.hash
          brokenAtSeq := none
          brokenReason := none }, by simp [setVerified, hc], rfl, rfl⟩
  · rw [hseq]
    exact ⟨s, _, rfl, h, hend⟩

/-- The same of a pass through the pending chains: a chain it leaves alone has its checkpoint at
the head. -/
lemma History.verifyPending (h : History P (chainId tenantId) s all) :
    ∃ s' n, verifyPending P s tenantId = some (s', ⟨n, none⟩) ∧
      History P (chainId tenantId) s' all ∧ VerifiedToEnd s' := by
  cases hc : s.entry with
  | none =>
      refine ⟨s, 0, by simp [Audit.verifyPending, hc], h, verifiedToEnd_of_empty ?_⟩
      rw [h.rows_of_no_entry hc]
      rfl
  | some c =>
      by_cases hpending : c.verifiedSeq ≠ some c.headSeq ∨ c.brokenAtSeq ≠ none
      · obtain ⟨s', n, hone, hrest⟩ := h.verifyOne hc
        refine ⟨s', n, ?_, hrest⟩
        simp only [Audit.verifyPending, hc, if_pos hpending]
        exact hone
      · refine ⟨s, 0, by simp only [Audit.verifyPending, hc, if_neg hpending], h, ?_⟩
        intro r hr
        have hhead := h.head
        rw [hc, h.getLast?_rows hr, Option.map_some, Option.map_some, Option.some.injEq,
          Prod.mk.injEq] at hhead
        have hat : c.verifiedSeq = some c.headSeq := by
          by_contra hne
          exact hpending (.inl hne)
        rcases h.verified c hc with ⟨hnone, -⟩ | ⟨x, hx, hseq, hhash⟩
        · rw [hnone] at hat
          cases hat
        · have hxr : x = r := by
            refine h.honest.ordered.eq_of_number hx (List.mem_of_getLast? (h.getLast?_rows hr)) ?_
            rw [hseq, Option.some.injEq] at hat
            exact hat.trans hhead.1
          exact ⟨c, hc, by rw [hseq, hxr], by rw [hhash, hxr]⟩

lemma History.verifyChain (h : History P (chainId tenantId) s all) :
    ∃ s' n, verifyChain P s tenantId = some (s', ⟨n, none⟩) ∧
      History P (chainId tenantId) s' all ∧ VerifiedToEnd s' := by
  cases hc : s.entry with
  | none =>
      refine ⟨s, 0, by simp [Audit.verifyChain, hc], h, verifiedToEnd_of_empty ?_⟩
      rw [h.rows_of_no_entry hc]
      rfl
  | some c =>
      obtain ⟨s', n, hone, hrest⟩ := h.verifyOne hc
      exact ⟨s', n, by simp only [Audit.verifyChain, hc]; exact hone, hrest⟩

lemma History.newest (h : History P chain s all) (hend : VerifiedToEnd s) :
    ∀ r ∈ s.rows, (∀ r' ∈ s.rows, r'.seq ≤ r.seq) → VerifiedAt s r := by
  intro r hr hmax
  have hne : s.rows ≠ [] := List.ne_nil_of_mem hr
  have hlast := List.getLast?_eq_getLast_of_ne_nil hne
  have hmem := List.getLast_mem hne
  have hle : r.seq ≤ (s.rows.getLast hne).seq := by
    by_cases heq : r = s.rows.getLast hne
    · exact le_of_eq (congrArg (fun x : AuditEvent => x.seq) heq)
    · have hord := h.rows_honest.ordered
      rw [Ordered, Increasing, ← List.dropLast_append_getLast hne] at hord
      have hdrop : r ∈ s.rows.dropLast := by
        rw [← List.dropLast_append_getLast hne, List.mem_append, List.mem_singleton] at hr
        exact hr.resolve_right heq
      exact le_of_lt ((List.pairwise_append.mp hord).2.2 r hdrop _ (List.mem_singleton.mpr rfl))
  have heq : r = s.rows.getLast hne :=
    h.rows_honest.ordered.eq_of_number hr hmem (le_antisymm hle (hmax _ hmem))
  exact hend r (by rw [hlast, ← heq]; rfl)

/-! ## Whole runs -/

/-- What happens to a chain, one operation after the other. -/
inductive ChainOp
  | record (events : List Event)
  | purge (now : Instant) (retentionDays : ℕ)
  | purgePrefix (upTo : ℤ) (batch : ℕ)
  | verifyChain
  | verifyPending

/-- The events recorded are the chain's own. -/
def ChainOp.OfChain (tenantId : Option Uuid128) : ChainOp → Prop
  | .record events => ∀ e ∈ events, e.tenantId = tenantId
  | _ => True

/-- The chain of a tenant (`none`: the global chain). -/
def chainMachine (P : Primitives) (tenantId : Option Uuid128) : Machine ChainStore ChainOp where
  step s
    | .record events => some (recordChain P s events)
    | .purge now days => some (purge s now days)
    | .purgePrefix upTo batch => some (purgePrefix s upTo batch)
    | .verifyChain => (verifyChain P s tenantId).map (·.1)
    | .verifyPending => (verifyPending P s tenantId).map (·.1)

/-- Some history stands behind the chain. -/
def Honest (P : Primitives) (chain : Uuid128) (s : ChainStore) : Prop := ∃ all, History P chain s all

lemma honest_empty (P : Primitives) (chain : Uuid128) : Honest P chain ChainStore.empty :=
  ⟨[], HonestRows.nil, ⟨0, le_refl _, rfl⟩, rfl, fun _ he => absurd he (Option.not_mem_none _),
    fun _ he => absurd he (Option.not_mem_none _)⟩

/-- **Every operation goes through and keeps the history.** -/
theorem chainMachine_step
    (h : Honest P (chainId tenantId) s) {op : ChainOp} (hop : op.OfChain tenantId) :
    ∃ s', (chainMachine P tenantId).step s op = some s' ∧ Honest P (chainId tenantId) s' := by
  obtain ⟨all, h⟩ := h
  cases op with
  | record events => exact ⟨_, rfl, _, h.record hop⟩
  | purge now days => exact ⟨_, rfl, _, h.purge now days⟩
  | purgePrefix upTo batch => exact ⟨_, rfl, _, h.purgePrefix upTo batch⟩
  | verifyChain =>
      obtain ⟨s', n, hv, h', -⟩ := h.verifyChain
      exact ⟨s', by simp only [chainMachine, hv, Option.map_some], all, h'⟩
  | verifyPending =>
      obtain ⟨s', n, hv, h', -⟩ := h.verifyPending
      exact ⟨s', by simp only [chainMachine, hv, Option.map_some], all, h'⟩

/-- Every run goes through and keeps the history. -/
theorem chainMachine_run {ops : List ChainOp}
    (hops : ∀ op ∈ ops, op.OfChain tenantId) (h : Honest P (chainId tenantId) s) :
    ∃ s', (chainMachine P tenantId).run s ops = some s' ∧ Honest P (chainId tenantId) s' := by
  induction ops generalizing s with
  | nil => exact ⟨s, rfl, h⟩
  | cons op ops ih =>
      obtain ⟨t, ht, hhonest⟩ := chainMachine_step h (hops op List.mem_cons_self)
      obtain ⟨s', hs', hfinal⟩ := ih (fun o ho => hops o (List.mem_cons_of_mem _ ho)) hhonest
      exact ⟨s', Machine.run_cons.mpr ⟨t, ht, hs'⟩, hfinal⟩

/-- **An honest chain verifies.**  After any sequence of batches, purges and passes, the full walk
from the oldest retained row reports no break; so does the scheduled pass from the last
checkpoint, and it leaves the checkpoint at the newest row. -/
theorem honest_chain_verifies (P : Primitives) (tenantId : Option Uuid128) (ops : List ChainOp)
    (hops : ∀ op ∈ ops, op.OfChain tenantId) :
    ∃ s, (chainMachine P tenantId).run ChainStore.empty ops = some s ∧
      (∃ w, walk P s (chainId tenantId) none = some w ∧ w.broken = none) ∧
      (∃ s' n, verifyChain P s tenantId = some (s', ⟨n, none⟩) ∧
        ∀ r ∈ s'.rows, (∀ r' ∈ s'.rows, r'.seq ≤ r.seq) →
          ∃ e ∈ s'.entry, e.verifiedSeq = some r.seq ∧ e.verifiedHash = some r.hash) ∧
      (∃ s' n, verifyPending P s tenantId = some (s', ⟨n, none⟩) ∧
        ∀ r ∈ s'.rows, (∀ r' ∈ s'.rows, r'.seq ≤ r.seq) →
          ∃ e ∈ s'.entry, e.verifiedSeq = some r.seq ∧ e.verifiedHash = some r.hash) := by
  obtain ⟨s, hrun, all, h⟩ := chainMachine_run hops (honest_empty P (chainId tenantId))
  obtain ⟨w, hw, hbroken, -⟩ := h.rows_honest.walk_full
  obtain ⟨s1, n1, hv1, h1, hend1⟩ := h.verifyChain
  obtain ⟨s2, n2, hv2, h2, hend2⟩ := h.verifyPending
  exact ⟨s, hrun, ⟨w, hw, hbroken⟩, ⟨s1, n1, hv1, h1.newest hend1⟩, ⟨s2, n2, hv2, h2.newest hend2⟩⟩

/-- The run purges its checkpoint, and every row. -/
theorem honest_chain_verifies_emptied :
    ∃ s, (chainMachine samplePrimitives none).run ChainStore.empty
        [.record [sampleEvent 1], .verifyChain, .purgePrefix 1 5000, .record [sampleEvent 2]] = some s ∧
      (∃ w, walk samplePrimitives s (chainId none) none = some w ∧ w.broken = none) ∧
      (∃ s' n, verifyChain samplePrimitives s none = some (s', ⟨n, none⟩) ∧
        ∀ r ∈ s'.rows, (∀ r' ∈ s'.rows, r'.seq ≤ r.seq) →
          ∃ e ∈ s'.entry, e.verifiedSeq = some r.seq ∧ e.verifiedHash = some r.hash) ∧
      (∃ s' n, verifyPending samplePrimitives s none = some (s', ⟨n, none⟩) ∧
        ∀ r ∈ s'.rows, (∀ r' ∈ s'.rows, r'.seq ≤ r.seq) →
          ∃ e ∈ s'.entry, e.verifiedSeq = some r.seq ∧ e.verifiedHash = some r.hash) :=
  honest_chain_verifies samplePrimitives none _ (by
    intro op hop
    simp only [List.mem_cons, List.not_mem_nil, or_false] at hop
    rcases hop with rfl | rfl | rfl | rfl
    · simp [ChainOp.OfChain, sampleEvent]
    · trivial
    · trivial
    · simp [ChainOp.OfChain, sampleEvent])

end Ridm.Audit
