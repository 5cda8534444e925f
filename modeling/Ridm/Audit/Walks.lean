import Ridm.Audit.Verification

/-!
# Walks while the chain changes

`walk` reads each of its pages in a transaction of its own, and remembers only its position in
between.  Meanwhile `record_chain` appends and `purge` deletes batches of the expired prefix, each
in a transaction of its own too.  `walkMachine` interleaves them.

On a chain nobody tampered with, a page raises no alarm exactly when the row right behind the
walk's position is still there, or no row above the position is (`page_passes_iff`), and over whole
runs that is the exact condition (`walks_raise_no_alarm_iff`).  A purge that overtakes the walk
looks like a removed row: `overtaken_walk_raises_alarm`.
-/

namespace Ridm.Audit

open NumberedLog

/-- The chain, the walk that is under way, and how the last one ended. -/
structure WalkWorld where
  store : ChainStore
  walking : Option WalkState
  done : Option Walk

/-- Nothing was recorded, and nobody walks. -/
def WalkWorld.initial : WalkWorld := ⟨ChainStore.empty, none, none⟩

/-- The transactions that are interleaved. -/
inductive WalkStep
  | record (events : List Event)
  | purge (upTo : ℤ)
  | start
  /-- `checkpoint_intact` reads the row `seq`, and `walk` starts behind it. -/
  | resume (seq : ℤ)
  | page

/-- The events recorded are the chain's own. -/
def WalkStep.OfChain (tenantId : Option Uuid128) : WalkStep → Prop
  | .record events => ∀ e ∈ events, e.tenantId = tenantId
  | _ => True

/-- One page of the walk under way. -/
def readPage (P : Primitives) (w : WalkWorld) (at_ : WalkState) : WalkWorld :=
  match walkPage P at_ (chainPage w.store at_.after exportPage) with
  | .inl next => { w with walking := some next }
  | .inr ended => { w with walking := none, done := some ended }

/-- A walk of a tenant's chain (`none`: the global chain) among appends and retention. -/
def walkMachine (P : Primitives) (tenantId : Option Uuid128) : Machine WalkWorld WalkStep where
  step w
    | .record events => some { w with store := recordChain P w.store events }
    | .purge upTo => some { w with store := purgePrefix w.store upTo purgeBatch }
    | .start => some { w with walking := some (WalkState.start (chainId tenantId) none) }
    | .resume seq =>
        ((chainPage w.store (some (seq - 1)) 1).head?.filter (·.seq = seq)).map fun row =>
          { w with walking := some (WalkState.start (chainId tenantId) (some (row.seq, row.hash))) }
    | .page => w.walking.map (readPage P w)

/-- No walk has ended with a break. -/
def NoAlarm (w : WalkWorld) : Prop := ∀ d ∈ w.done, d.broken = none

/-- Retention has not overtaken the walk: the row right behind its position is still there, or
none above the position is. -/
def NotOvertaken (w : WalkWorld) : WalkStep → Prop
  | .page => ∀ at_ ∈ w.walking, ∀ n ∈ at_.after,
      (∃ r ∈ w.store.rows, n < r.seq) → ∃ r ∈ w.store.rows, r.seq = n + 1
  | _ => True

/-! ## The invariant -/

/-- Where a walk stands: at the beginning, or at a row that was appended at some time. -/
inductive Standing (chain : Uuid128) (all : List AuditEvent) : WalkState → Prop
  | fresh : Standing chain all (WalkState.start chain none)
  | behind (r : AuditEvent) (hr : r ∈ all) (v : Verifier) (hchain : v.chain = some chain)
      (hprev : v.prev = some (r.seq, r.hash)) : Standing chain all ⟨v, some r.seq⟩

variable {P : Primitives} {chain : Uuid128} {s : ChainStore} {all : List AuditEvent} {w : WalkState}

lemma Standing.mono {all more : List AuditEvent}
    (h : Standing chain all w) : Standing chain (all ++ more) w := by
  cases h with
  | fresh => exact .fresh
  | behind r hr v hchain hprev => exact .behind r (List.mem_append_left _ hr) v hchain hprev

/-- An untampered chain, and a walk that stands at one of its rows. -/
def Tracked (P : Primitives) (chain : Uuid128) (w : WalkWorld) : Prop :=
  ∃ all, History P chain w.store all ∧ ∀ at_ ∈ w.walking, Standing chain all at_

lemma tracked_of_idle {w : WalkWorld}
    (h : History P chain w.store all) (hidle : w.walking = none) : Tracked P chain w := by
  refine ⟨all, h, ?_⟩
  intro at_ hat
  rw [hidle] at hat
  cases hat

lemma History.rowsAfter_honest (h : History P chain s all) (after : Option ℤ) :
    HonestRows P chain (rowsAfter s after) := by
  obtain ⟨k, hk⟩ := rowsAfter_eq_drop h.rows_honest.ordered after
  rw [hk]
  exact h.rows_honest.drop k

lemma follows_of_notOvertaken (h : History P chain s all) {r x : AuditEvent} (hr : r ∈ all)
    (hx : (rowsAfter s (some r.seq)).head? = some x)
    (hnext : ∃ z ∈ s.rows, z.seq = r.seq + 1) : x.FollowsOn (r.seq, r.hash) := by
  obtain ⟨z, hz, hzseq⟩ := hnext
  have hxmem : x ∈ rowsAfter s (some r.seq) := List.mem_of_mem_head? hx
  have hzmem : z ∈ rowsAfter s (some r.seq) := by
    rw [rowsAfter_some, List.mem_filter]
    exact ⟨hz, by simp [hzseq]⟩
  have hxrow : x ∈ s.rows ∧ r.seq < x.seq := by
    rw [rowsAfter_some, List.mem_filter] at hxmem
    exact ⟨hxmem.1, by simpa using hxmem.2⟩
  -- the first row has the lowest number above the position
  have hle : x.seq ≤ z.seq := by
    have hord := (h.rowsAfter_honest (some r.seq)).ordered
    cases hrows : rowsAfter s (some r.seq) with
    | nil =>
        rw [hrows] at hx
        cases hx
    | cons y rows =>
        rw [hrows] at hx hzmem hord
        cases hx
        rcases List.mem_cons.mp hzmem with rfl | hzmem
        · exact le_refl _
        · exact le_of_lt ((List.pairwise_cons.mp hord).1 z hzmem)
  have hseq : x.seq = r.seq + 1 := by omega
  exact ⟨hseq, h.honest.linked.link_of_next hr (h.rows_subset x hxrow.1) hseq⟩

/-- **The page a standing walk reads passes exactly when the walk is not overtaken.** -/
lemma page_passes_iff (h : History P chain s all) (hw : Standing chain all w) :
    (checkRows P w.verifier (chainPage s w.after exportPage)).2 = none ↔
      ∀ n ∈ w.after, (∃ r ∈ s.rows, n < r.seq) → ∃ r ∈ s.rows, r.seq = n + 1 := by
  rw [chainPage_eq h.rows_honest.ordered, accepted_iff]
  have hpage : HonestRows P chain ((rowsAfter s w.after).take exportPage) :=
    (h.rowsAfter_honest w.after).take exportPage
  have hhead : ((rowsAfter s w.after).take exportPage).head? = (rowsAfter s w.after).head? := by
    cases rowsAfter s w.after <;> rfl
  cases hw with
  | fresh =>
      exact ⟨fun _ _ hn => absurd hn (Option.not_mem_none _), fun _ => hpage.accepted_fresh⟩
  | behind r hr v hchain hprev =>
      simp only [hchain, hprev] at hpage hhead ⊢
      constructor
      · rintro hacc n hn ⟨x, hx, hlt⟩
        cases hn
        have hxmem : x ∈ rowsAfter s (some r.seq) := by
          rw [rowsAfter_some, List.mem_filter]
          exact ⟨hx, by simpa using hlt⟩
        cases hrows : rowsAfter s (some r.seq) with
        | nil =>
            rw [hrows] at hxmem
            cases hxmem
        | cons y rows =>
            rw [hrows] at hacc
            have hy : y ∈ s.rows := by
              have : y ∈ rowsAfter s (some r.seq) := by
                rw [hrows]
                exact List.mem_cons_self
              rw [rowsAfter_some, List.mem_filter] at this
              exact this.1
            exact ⟨y, hy, (hacc.2.1 _ rfl).1⟩
      · intro hnext
        refine hpage.accepted (fun c hc => by cases hc; rfl) ?_
        intro x hx p hp
        cases hp
        rw [hhead] at hx
        refine follows_of_notOvertaken h hr hx (hnext _ rfl ?_)
        have hxmem := List.mem_of_mem_head? hx
        rw [rowsAfter_some, List.mem_filter] at hxmem
        exact ⟨x, hxmem.1, by simpa using hxmem.2⟩

lemma Standing.next (h : History P chain s all)
    (hpass : (checkRows P w.verifier (chainPage s w.after exportPage)).2 = none)
    (hfull : ¬ (chainPage s w.after exportPage).length < exportPage) :
    Standing chain all ⟨(checkRows P w.verifier (chainPage s w.after exportPage)).1,
      (chainPage s w.after exportPage).getLast?.map (·.seq)⟩ := by
  obtain ⟨hchain, hprev, -, -⟩ := checkRows_passed P w.verifier _ hpass
  cases hlast : (chainPage s w.after exportPage).getLast? with
  | none =>
      rw [List.getLast?_eq_none_iff] at hlast
      rw [hlast] at hfull
      exact absurd (show (0 : ℕ) < 500 by decide) hfull
  | some r =>
      have hmem : r ∈ s.rows := by
        have hr := List.mem_of_getLast? hlast
        rw [chainPage_eq h.rows_honest.ordered] at hr
        exact (List.mem_filter.mp (List.mem_of_mem_take hr)).1
      rw [hlast] at hchain hprev
      refine .behind r (h.rows_subset r hmem) _ ?_ hprev
      rw [hchain, Option.map_some, Option.some_or, h.rows_honest.ofChain r hmem]

/-! ## Steps and runs -/

variable {tenantId : Option Uuid128} {at_ : WalkState} {r : AuditEvent}

lemma readPage_passes {w : WalkWorld}
    (h : (checkRows P at_.verifier (chainPage w.store at_.after exportPage)).2 = none) :
    (readPage P w at_).store = w.store ∧
      ((chainPage w.store at_.after exportPage).length < exportPage →
        (readPage P w at_).walking = none ∧ ∀ d ∈ (readPage P w at_).done, d.broken = none) ∧
      (¬ (chainPage w.store at_.after exportPage).length < exportPage →
        (readPage P w at_).done = w.done ∧ (readPage P w at_).walking =
            some ⟨(checkRows P at_.verifier (chainPage w.store at_.after exportPage)).1,
              (chainPage w.store at_.after exportPage).getLast?.map (·.seq)⟩) := by
  by_cases hlen : (chainPage w.store at_.after exportPage).length < exportPage
  · rw [readPage, walkPage_last P at_ hlen]
    refine ⟨rfl, fun _ => ⟨rfl, ?_⟩, fun hno => absurd hlen hno⟩
    intro d hd
    cases hd
    exact h
  · rw [readPage, walkPage_next P at_ hlen h]
    exact ⟨rfl, fun hyes => absurd hyes hlen, fun _ => ⟨rfl, rfl⟩⟩

lemma readPage_breaks {w : WalkWorld}
    (h : (checkRows P at_.verifier (chainPage w.store at_.after exportPage)).2 ≠ none) :
    (readPage P w at_).store = w.store ∧ (readPage P w at_).walking = none ∧
      ∃ d ∈ (readPage P w at_).done, d.broken ≠ none := by
  rw [readPage, walkPage_broken P at_ h]
  exact ⟨rfl, rfl, _, rfl, h⟩

/-- **A page raises an alarm exactly when retention has overtaken the walk**, and the walk that
goes on stands at a row of the chain. -/
lemma readPage_spec {w : WalkWorld}
    (h : History P (chainId tenantId) w.store all) (hquiet : NoAlarm w)
    (hat : w.walking = some at_) (hstand : Standing (chainId tenantId) all at_) :
    Tracked P (chainId tenantId) (readPage P w at_) ∧
      (NoAlarm (readPage P w at_) ↔ NotOvertaken w .page) := by
  have hover : NotOvertaken w .page ↔
      (checkRows P at_.verifier (chainPage w.store at_.after exportPage)).2 = none := by
    rw [page_passes_iff h hstand]
    exact ⟨fun hno => hno at_ hat, fun hno x hx => by
      rw [hat] at hx
      cases hx
      exact hno⟩
  rw [hover]
  by_cases hpass : (checkRows P at_.verifier (chainPage w.store at_.after exportPage)).2 = none
  · obtain ⟨hstore, hshort, hfull⟩ := readPage_passes (w := w) hpass
    by_cases hlen : (chainPage w.store at_.after exportPage).length < exportPage
    · obtain ⟨hwalk, hdone⟩ := hshort hlen
      exact ⟨tracked_of_idle (by rw [hstore]; exact h) hwalk, fun _ => hpass, fun _ => hdone⟩
    · obtain ⟨hdone, hwalk⟩ := hfull hlen
      refine ⟨⟨all, by rw [hstore]; exact h, ?_⟩, ?_⟩
      · rw [hwalk]
        intro x hx
        cases hx
        exact Standing.next h hpass hlen
      · rw [NoAlarm, hdone]
        exact ⟨fun _ => hpass, fun _ => hquiet⟩
  · obtain ⟨hstore, hwalk, d, hd, hbroken⟩ := readPage_breaks (w := w) hpass
    refine ⟨tracked_of_idle (by rw [hstore]; exact h) hwalk, ?_⟩
    exact ⟨fun hno => absurd (hno d hd) hbroken, fun hyes => absurd hyes hpass⟩

/-- One step: the walk keeps standing at a row of the chain, and an alarm is raised exactly by the
page of an overtaken walk. -/
theorem walkMachine_step {w w' : WalkWorld}
    {a : WalkStep} (hof : a.OfChain tenantId) (htrack : Tracked P (chainId tenantId) w)
    (hquiet : NoAlarm w) (hstep : (walkMachine P tenantId).step w a = some w') :
    Tracked P (chainId tenantId) w' ∧ (NoAlarm w' ↔ NotOvertaken w a) := by
  obtain ⟨all, h, hstand⟩ := htrack
  cases a with
  | record events =>
      cases hstep
      exact ⟨⟨_, h.record hof, fun x hx => (hstand x hx).mono⟩, fun _ => trivial, fun _ => hquiet⟩
  | purge upTo =>
      cases hstep
      exact ⟨⟨all, h.purgePrefix upTo purgeBatch, hstand⟩, fun _ => trivial, fun _ => hquiet⟩
  | start =>
      cases hstep
      refine ⟨⟨all, h, ?_⟩, fun _ => trivial, fun _ => hquiet⟩
      intro x hx
      cases hx
      exact .fresh
  | resume seq =>
      simp only [walkMachine, Option.map_eq_some_iff] at hstep
      obtain ⟨row, hrow, rfl⟩ := hstep
      refine ⟨⟨all, h, ?_⟩, fun _ => trivial, fun _ => hquiet⟩
      intro x hx
      cases hx
      have hmem : row ∈ w.store.rows := by
        have hhead := (Option.filter_eq_some_iff.mp hrow).1
        have := List.mem_of_mem_head? hhead
        rw [chainPage_eq h.rows_honest.ordered, rowsAfter_some] at this
        exact (List.mem_filter.mp (List.mem_of_mem_take this)).1
      exact .behind row (h.rows_subset row hmem) _ rfl rfl
  | page =>
      simp only [walkMachine, Option.map_eq_some_iff] at hstep
      obtain ⟨at_, hat, rfl⟩ := hstep
      exact readPage_spec h hquiet hat (hstand at_ hat)

lemma tracked_initial (P : Primitives) (chain : Uuid128) : Tracked P chain WalkWorld.initial := by
  obtain ⟨all, h⟩ := honest_empty P chain
  exact tracked_of_idle h rfl

/-- **When a walk raises a false alarm.**  In every run of appends, retention batches and page
reads over an untampered chain, no walk reports a break in any state reached exactly when
retention never overtakes a page: each page is read while the row right behind the walk's position
is still there, or no row above the position is. -/
theorem walks_raise_no_alarm_iff (P : Primitives) (tenantId : Option Uuid128)
    (steps : List WalkStep) (hof : ∀ a ∈ steps, a.OfChain tenantId) (e : WalkWorld)
    (hrun : (walkMachine P tenantId).run WalkWorld.initial steps = some e) :
    (∀ as bs t, steps = as ++ bs →
        (walkMachine P tenantId).run WalkWorld.initial as = some t → NoAlarm t) ↔
      (walkMachine P tenantId).Meets NotOvertaken WalkWorld.initial steps :=
  Machine.always_iff_meets (I := Tracked P (chainId tenantId)) (G := NoAlarm) walkMachine_step hof hrun
    (tracked_initial P _) fun _ hd => absurd hd (Option.not_mem_none _)

/-- A walk that reads its pages before retention comes by. -/
theorem walks_raise_no_alarm_iff_unhurried :
    (∀ as bs t, [WalkStep.record [sampleEvent 1, sampleEvent 2], .start, .page, .purge 1] = as ++ bs →
        (walkMachine samplePrimitives none).run WalkWorld.initial as = some t → NoAlarm t) ↔
      (walkMachine samplePrimitives none).Meets NotOvertaken WalkWorld.initial
        [.record [sampleEvent 1, sampleEvent 2], .start, .page, .purge 1] :=
  walks_raise_no_alarm_iff samplePrimitives none _ (by
    intro a ha
    simp only [List.mem_cons, List.not_mem_nil, or_false] at ha
    rcases ha with rfl | rfl | rfl | rfl
    · simp [WalkStep.OfChain, sampleEvent]
    · trivial
    · trivial
    · trivial) _ rfl

/-! ## A walk that is overtaken -/

lemma length_chainRows (P : Primitives) (events : List Event) (head : Option (ℤ × Bytes)) :
    (chainRows P head events).length = events.length := by
  induction events generalizing head with
  | nil => rfl
  | cons e events ih => simp [chainRows, ih]

lemma chainRows_seq (P : Primitives) (events : List Event) (head : Option (ℤ × Bytes)) (i : ℕ)
    (r : AuditEvent) (h : (chainRows P head events)[i]? = some r) :
    r.seq = (head.map (·.1)).getD 0 + i + 1 := by
  induction events generalizing head i with
  | nil => simp [chainRows] at h
  | cons e events ih =>
      rw [chainRows] at h
      have hfirst : (chainRow P e head).seq = (head.map (·.1)).getD 0 + 1 := by
        cases head with
        | none => rfl
        | some p => rfl
      cases i with
      | zero =>
          rw [List.getElem?_cons_zero, Option.some.injEq] at h
          rw [← h, hfirst]
          simp
      | succ i =>
          rw [List.getElem?_cons_succ] at h
          have := ih _ i h
          simp only [Option.map_some, Option.getD_some, hfirst] at this
          push_cast
          omega

lemma rows_recordChain (P : Primitives) (s : ChainStore) (events : List Event) :
    (recordChain P s events).rows = s.rows ++ chainRows P (currentHead s) events := by
  unfold recordChain advanceHead
  grind

lemma mem_purgePrefix (h : Ordered s.rows) {upTo : ℤ} {batch : ℕ}
    (hbatch : s.rows.length ≤ batch) (r : AuditEvent) :
    r ∈ (purgePrefix s upTo batch).rows ↔ r ∈ s.rows ∧ upTo < r.seq := by
  have hexp : expiredRows s upTo batch = s.rows.filter (fun r => decide (r.seq ≤ upTo)) := by
    rw [expiredRows, orderBySeq_eq (h.filter _)]
    exact List.take_of_length_le (le_trans (List.length_filter_le _ _) hbatch)
  rw [purgePrefix, hexp]
  simp only [List.mem_filter, decide_eq_true_eq, not_and]
  constructor
  · rintro ⟨hr, hnot⟩
    exact ⟨hr, by have := hnot hr; omega⟩
  · rintro ⟨hr, hlt⟩
    exact ⟨hr, fun _ => by omega⟩

def longBatch : List Event := (List.range 502).map sampleEvent

def overtakingSteps : List WalkStep := [.record longBatch, .start, .page, .purge 501, .page]

lemma overtakingSteps_ofChain : ∀ a ∈ overtakingSteps, a.OfChain none := by
  intro a ha
  simp only [overtakingSteps, List.mem_cons, List.not_mem_nil, or_false] at ha
  rcases ha with rfl | rfl | rfl | rfl | rfl
  · intro e he
    obtain ⟨n, -, rfl⟩ := List.mem_map.mp he
    rfl
  · trivial
  · trivial
  · trivial
  · trivial

def longChain (P : Primitives) : ChainStore := recordChain P ChainStore.empty longBatch

lemma rows_longChain (P : Primitives) : (longChain P).rows = chainRows P none longBatch := by
  have hhead : currentHead ChainStore.empty = none := rfl
  have hrows : ChainStore.empty.rows = [] := rfl
  rw [longChain, rows_recordChain, hhead, hrows, List.nil_append]

lemma length_longChain (P : Primitives) : (longChain P).rows.length = 502 := by
  rw [rows_longChain, length_chainRows]
  simp [longBatch]

lemma seq_longChain (P : Primitives) {i : ℕ}
    (h : (longChain P).rows[i]? = some r) : r.seq = i + 1 := by
  rw [rows_longChain] at h
  have := chainRows_seq P longBatch none i r h
  simpa using this

lemma history_longChain (P : Primitives) : Honest P (chainId none) (longChain P) := by
  obtain ⟨all, h⟩ := honest_empty P (chainId none)
  exact ⟨_, h.record (overtakingSteps_ofChain _ List.mem_cons_self)⟩

lemma readPage_first (h : History P chain s all) (hrows : exportPage ≤ s.rows.length)
    (hr : s.rows[exportPage - 1]? = some r) :
    ∃ v, readPage P ⟨s, some (WalkState.start chain none), none⟩ (WalkState.start chain none) =
        ⟨s, some ⟨v, some r.seq⟩, none⟩ ∧ Standing chain all ⟨v, some r.seq⟩ := by
  have hfresh : Standing chain all (WalkState.start chain none) := Standing.fresh
  have hpass := (page_passes_iff h hfresh).mpr
    (fun _ hn => absurd hn (Option.not_mem_none _))
  have hpage : chainPage s (WalkState.start chain none).after exportPage =
      s.rows.take exportPage := by
    rw [chainPage_eq h.rows_honest.ordered, WalkState.start, rowsAfter_none]
  have hlen : (s.rows.take exportPage).length = exportPage := by
    rw [List.length_take]
    omega
  have hlast : (s.rows.take exportPage).getLast? = some r := by
    rw [List.getLast?_eq_getElem?, hlen, List.getElem?_take_of_lt (by decide), hr]
  have hfull : ¬ (chainPage s (WalkState.start chain none).after exportPage).length < exportPage := by
    rw [hpage, hlen]
    exact lt_irrefl _
  have hstand := Standing.next h hpass hfull
  rw [hpage, hlast] at hstand
  refine ⟨_, ?_, hstand⟩
  rw [readPage, walkPage_next P _ hfull hpass, hpage, hlast]
  rfl

lemma readPage_overtaken (h : History P chain s all)
    (hw : Standing chain all w) {n : ℤ} (hn : w.after = some n)
    (habove : ∃ r ∈ s.rows, n < r.seq) (hgone : ∀ r ∈ s.rows, r.seq ≠ n + 1) :
    ¬ NoAlarm (readPage P ⟨s, some w, none⟩ w) := by
  have hbreaks : (checkRows P w.verifier (chainPage s w.after exportPage)).2 ≠ none := by
    rw [ne_eq, page_passes_iff h hw]
    intro hno
    obtain ⟨r, hr, hseq⟩ := hno n hn habove
    exact hgone r hr hseq
  obtain ⟨-, -, d, hd, hbroken⟩ := readPage_breaks (w := ⟨s, some w, none⟩) hbreaks
  exact fun hno => hbroken (hno d hd)

/-- **Retention can overtake a walk.**  While the walk stands at row 500 of an untampered chain,
retention deletes row 501 and leaves row 502, and the walk reports a break. -/
theorem overtaken_walk_raises_alarm :
    ∃ e, (walkMachine samplePrimitives none).run WalkWorld.initial overtakingSteps = some e ∧
      ¬ NoAlarm e := by
  obtain ⟨all, h⟩ := history_longChain samplePrimitives
  have hlen := length_longChain samplePrimitives
  have hseq : ∀ {i : ℕ} {r : AuditEvent}, (longChain samplePrimitives).rows[i]? = some r →
      r.seq = i + 1 := seq_longChain samplePrimitives
  have hrun : ∀ e, (walkMachine samplePrimitives none).run
      ⟨longChain samplePrimitives, none, none⟩ [.start, .page, .purge 501, .page] = some e →
      (walkMachine samplePrimitives none).run WalkWorld.initial overtakingSteps = some e :=
    fun e he => Machine.run_cons.mpr ⟨_, rfl, he⟩
  -- the recorded chain stays folded from here on
  generalize longChain samplePrimitives = s at *
  obtain ⟨r, hr⟩ : ∃ r, s.rows[exportPage - 1]? = some r :=
    ⟨_, List.getElem?_eq_getElem (by rw [hlen]; decide)⟩
  obtain ⟨last, hlast⟩ : ∃ r, s.rows[501]? = some r :=
    ⟨_, List.getElem?_eq_getElem (by rw [hlen]; decide)⟩
  have hpos : r.seq = 500 := hseq hr
  obtain ⟨v, hfirst, hstand⟩ := readPage_first h (by rw [hlen]; decide) hr
  have hmem : ∀ x, x ∈ (purgePrefix s 501 purgeBatch).rows ↔ x ∈ s.rows ∧ 501 < x.seq :=
    mem_purgePrefix h.rows_honest.ordered (by rw [hlen]; decide)
  refine ⟨readPage samplePrimitives ⟨purgePrefix s 501 purgeBatch, some ⟨v, some r.seq⟩, none⟩
    ⟨v, some r.seq⟩, hrun _ ?_, ?_⟩
  · exact Machine.run_cons.mpr ⟨_, rfl, Machine.run_cons.mpr ⟨_, congrArg some hfirst,
      Machine.run_cons.mpr ⟨_, rfl, Machine.run_cons.mpr ⟨_, rfl, rfl⟩⟩⟩⟩
  · refine readPage_overtaken (h.purgePrefix 501 purgeBatch) hstand rfl ?_ ?_
    · refine ⟨last, (hmem last).mpr ⟨List.mem_of_getElem? hlast, ?_⟩, ?_⟩
      · rw [hseq hlast]
        decide
      · rw [hseq hlast, hpos]
        decide
    · intro x hx hxseq
      have := ((hmem x).mp hx).2
      rw [hpos] at hxseq
      omega

end Ridm.Audit
