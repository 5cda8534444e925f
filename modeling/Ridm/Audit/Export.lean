import Ridm.Audit.Walks

/-!
# The audit export

`database_pass` of `api/src/jobs/audit_sink.rs` ships the rows of one database to the sink, chain by
chain, and keeps in `audit_chains` how far it got.  Each of its transactions is one step here, and
any number of passes run among appends (`record_chain`) and batches of retention (`purge`).

The cursor of a chain moves in two places.  Behind a delivery it moves to the last row of the page,
and everything up to there was delivered, or retention took it (`Covered`): this branch skips
nothing.  Where the page was empty it moves to the head, which a later transaction reads, and what
was appended in between is passed over.  `export_skips_nothing_iff` gives the exact condition, and
that the cursor never moves back needs none; `export_skips_a_row` is the run that goes wrong.
-/

namespace Ridm.Audit

open NumberedLog

/-! ## The cursors -/

/-- A chain with the columns of its entry that belong to the sink.  A chain without an entry has
none in them. -/
structure SunkChain where
  store : ChainStore
  sinkSeq : Option ℤ
  sinkAt : Option Instant

/-- `COALESCE(sink_seq, 0)`. -/
def SunkChain.cursor (s : SunkChain) : ℤ := s.sinkSeq.getD 0

/-- `head_seq`, 0 for a chain without an entry. -/
def headSeq (s : ChainStore) : ℤ := (s.entry.map (·.headSeq)).getD 0

/-- One database: the sink its cursors were kept for (`audit_sink_state`), and its chains, of which
`ids` have an entry in `audit_chains`. -/
structure SinkTables where
  target : Option String
  ids : List Uuid128
  chain : Uuid128 → SunkChain

namespace SinkTables

/-- The tables with one chain changed. -/
def setChain (t : SinkTables) (id : Uuid128) (s : SunkChain) : SinkTables :=
  { t with chain := Function.update t.chain id s }

@[simp] lemma setChain_self (t : SinkTables) (id : Uuid128) (s : SunkChain) :
    (t.setChain id s).chain id = s := Function.update_self ..

@[simp] lemma setChain_of_ne (t : SinkTables) {id c : Uuid128} (h : c ≠ id) (s : SunkChain) :
    (t.setChain id s).chain c = t.chain c := Function.update_of_ne h ..

def startSink (t : SinkTables) (target : String) (now : Instant) : SinkTables where
  target := some target
  ids := t.ids
  chain id :=
    { store := (t.chain id).store
      sinkSeq := (t.chain id).store.entry.map (·.headSeq)
      sinkAt := (t.chain id).store.entry.map fun _ => now }

/-- `ensure_started`: a destination seen for the first time starts at the current heads. -/
def ensureStarted (t : SinkTables) (sink : String) (now : Instant) : SinkTables :=
  if t.target = some sink then t else t.startSink sink now

/-- `ORDER BY sink_at NULLS FIRST, chain_id`. -/
def servedFirst (t : SinkTables) (a b : Uuid128) : Bool :=
  match (t.chain a).sinkAt, (t.chain b).sinkAt with
  | none, none => a.toNat ≤ b.toNat
  | none, some _ => true
  | some _, none => false
  | some x, some y => x < y ∨ x = y ∧ a.toNat ≤ b.toNat

end SinkTables

/-- `Pending`: a chain with rows the sink has not shipped. -/
structure Pending where
  chainId : Uuid128
  sinkSeq : ℤ

namespace SinkTables

/-- `repos::audit_chains::pending`. -/
def pending (t : SinkTables) (limit : ℕ) : List Pending :=
  (((t.ids.filter fun id => (t.chain id).cursor < headSeq (t.chain id).store).insertionSort
    fun a b => t.servedFirst a b = true).take limit).map fun id => ⟨id, (t.chain id).cursor⟩

def advanceSink (t : SinkTables) (id : Uuid128) (seq : ℤ) (now : Instant) : SinkTables :=
  match (t.chain id).store.entry with
  | none => t
  | some _ =>
      t.setChain id
        { t.chain id with sinkSeq := some (max (t.chain id).cursor seq), sinkAt := some now }

/-- The transaction of the empty page: the head is read, and the cursor moves there. -/
def movePast (t : SinkTables) (id : Uuid128) (now : Instant) : SinkTables :=
  match (t.chain id).store.entry with
  | none => t
  | some e => t.advanceSink id e.headSeq now

def sinkLag (t : SinkTables) : ℤ :=
  ((t.ids.filter fun id => (t.chain id).cursor < headSeq (t.chain id).store).map fun id =>
    headSeq (t.chain id).store - (t.chain id).cursor).sum

/-- `record_chain` in its database: the first append of a chain inserts its entry. -/
def recordChain (P : Primitives) (t : SinkTables) (tenantId : Option Uuid128) (events : List Event) :
    SinkTables :=
  let id := Audit.chainId tenantId
  let store := Audit.recordChain P (t.chain id).store events
  let recorded := t.setChain id { t.chain id with store := store }
  { recorded with ids := if store.entry.isNone ∨ id ∈ t.ids then t.ids else t.ids ++ [id] }

/-- One batch of `purge`. -/
def purgePrefix (t : SinkTables) (id : Uuid128) (upTo : ℤ) : SinkTables :=
  t.setChain id { t.chain id with store := Audit.purgePrefix (t.chain id).store upTo purgeBatch }

end SinkTables

/-! ## Passes -/

/-- `BATCH`. -/
def sinkBatch : ℕ := 100

def chainsPerPass : ℕ := 50

/-- What happened to the rows of a chain: all that were ever appended, those the sink took, and
those retention removed before the cursor passed them. -/
structure Ledger where
  appended : List AuditEvent
  delivered : List AuditEvent
  removed : List AuditEvent

/-- The database, and what happened to its rows. -/
structure ExportWorld where
  tables : SinkTables
  ledger : Uuid128 → Ledger

/-- Where a `database_pass` stands.  `shipped` counts the rows of its deliveries. -/
inductive SinkPass
  | idle
  /-- In front of the loop's next turn; the lag is counted when no chain is left. -/
  | shipping (pending : List Pending) (shipped : ℕ)
  | emptied (chain : Pending) (pending : List Pending) (shipped : ℕ)
  | delivering (chain : Pending) (rows : List AuditEvent) (last : AuditEvent) (pending : List Pending)
      (shipped : ℕ)
  | taken (chain : Pending) (rows : List AuditEvent) (last : AuditEvent) (pending : List Pending)
      (shipped : ℕ)
  | failed (shipped : ℕ)
  | finished (shipped : ℕ) (failed : Bool) (behind : ℤ)
  | aborted

/-- How a transaction or a delivery ends; the former at some time. -/
inductive SinkDraw
  | done (now : Instant)
  | fails

/-- What goes on beside the passes. -/
inductive ChainEvent
  | record (tenantId : Option Uuid128) (events : List Event)
  | purge (chain : Uuid128) (upTo : ℤ)

namespace ExportWorld

/-- The ledger of one chain changed. -/
def note (g : ExportWorld) (id : Uuid128) (l : Ledger) : Uuid128 → Ledger :=
  Function.update g.ledger id l

@[simp] lemma note_self (g : ExportWorld) (id : Uuid128) (l : Ledger) : g.note id l id = l :=
  Function.update_self ..

@[simp] lemma note_of_ne (g : ExportWorld) {id c : Uuid128} (h : c ≠ id) (l : Ledger) :
    g.note id l c = g.ledger c := Function.update_of_ne h ..

/-- The sink has taken some rows of a chain. -/
def deliver (g : ExportWorld) (id : Uuid128) (rows : List AuditEvent) : ExportWorld :=
  let l := g.ledger id
  { g with ledger := g.note id { l with delivered := l.delivered ++ rows } }

/-- `record_chain`. -/
def record (P : Primitives) (g : ExportWorld) (tenantId : Option Uuid128) (events : List Event) :
    ExportWorld :=
  let id := chainId tenantId
  let l := g.ledger id
  let new := chainRows P (currentHead (g.tables.chain id).store) events
  { tables := g.tables.recordChain P tenantId events
    ledger := g.note id { l with appended := l.appended ++ new } }

/-- One batch of `purge`; it is noted which of its rows the cursor had not passed. -/
def purge (g : ExportWorld) (id : Uuid128) (upTo : ℤ) : ExportWorld :=
  let s := g.tables.chain id
  let l := g.ledger id
  let ahead := (expiredRows s.store upTo purgeBatch).filter fun r => s.cursor < r.seq
  { tables := g.tables.purgePrefix id upTo
    ledger := g.note id { l with removed := l.removed ++ ahead } }

end ExportWorld

/-- One step of `database_pass`. -/
def databasePass (sink : String) (g : ExportWorld) : SinkPass → SinkDraw → Option (ExportWorld × SinkPass)
  | .idle, .done now =>
      let started := g.tables.ensureStarted sink now
      match started.pending chainsPerPass with
      | [] => some ({ g with tables := started }, .finished 0 false 0)
      | pending => some ({ g with tables := started }, .shipping pending 0)
  | .shipping [] shipped, .done _ => some (g, .finished shipped false g.tables.sinkLag)
  | .shipping (chain :: pending) shipped, .done _ =>
      let rows := chainPage (g.tables.chain chain.chainId).store (some chain.sinkSeq) sinkBatch
      match rows.getLast? with
      | none => some (g, .emptied chain pending shipped)
      | some last => some (g, .delivering chain rows last pending shipped)
  | .emptied chain pending shipped, .done now =>
      some ({ g with tables := g.tables.movePast chain.chainId now }, .shipping pending shipped)
  | .delivering chain rows last pending shipped, .done _ =>
      some (g.deliver chain.chainId rows, .taken chain rows last pending shipped)
  | .delivering _ _ _ _ shipped, .fails => some (g, .failed shipped)
  | .taken chain rows last pending shipped, .done now =>
      some ({ g with tables := g.tables.advanceSink chain.chainId last.seq now },
        .shipping pending (shipped + rows.length))
  | .failed shipped, .done _ => some (g, .finished shipped true g.tables.sinkLag)
  | .finished .., _ => none
  | .aborted, _ => none
  | _, .fails => some (g, .aborted)

/-- Any number of passes of nodes that ship to `sink`, among appends and retention. -/
def exportCalls (P : Primitives) (sink : String) (ι : Type*) :
    Calls ι ExportWorld SinkPass SinkDraw ChainEvent where
  act _ g l d := databasePass sink g l d
  env g
    | .record tenantId events =>
        if ∀ e ∈ events, e.tenantId = tenantId then some (g.record P tenantId events) else none
    | .purge id upTo => some (g.purge id upTo)

/-- The destination has just been started at the heads of `t`; nothing was shipped to it yet, and no
pass has begun. -/
def exportStart (ι : Type*) (t : SinkTables) (sink : String) (now : Instant)
    (appended : Uuid128 → List AuditEvent) : Pool ι ExportWorld SinkPass :=
  ⟨⟨t.startSink sink now, fun id => ⟨appended id, [], []⟩⟩, fun _ => .idle⟩

/-! ## Heads -/

lemma HonestRows.le_getLast {P : Primitives} {chain : Uuid128} {rows : List AuditEvent}
    (h : HonestRows P chain rows) {r x : AuditEvent} (hr : r ∈ rows) (hx : rows.getLast? = some x) :
    r.seq ≤ x.seq := by
  obtain ⟨front, rfl⟩ := List.getLast?_eq_some_iff.mp hx
  rcases List.mem_append.mp hr with hr | hr
  · exact le_of_lt (h.lt_getLast hr List.mem_cons_self)
  · rw [List.mem_singleton.mp hr]

namespace History

variable {P : Primitives} {chain : Uuid128} {s : ChainStore} {all : List AuditEvent}

lemma headSeq_eq (h : History P chain s all) : headSeq s = (all.getLast?.map (·.seq)).getD 0 := by
  have hhead := congrArg (fun o : Option (ℤ × Bytes) => (o.map (·.1)).getD 0) h.head
  simpa [headSeq, Option.map_map, Function.comp_def] using hhead

variable {r : AuditEvent} {events : List Event}

lemma le_headSeq (h : History P chain s all) (hr : r ∈ all) : r.seq ≤ headSeq s := by
  cases hlast : all.getLast? with
  | none =>
      rw [List.getLast?_eq_none_iff] at hlast
      subst hlast
      exact absurd hr List.not_mem_nil
  | some x =>
      rw [h.headSeq_eq, hlast]
      exact h.honest.le_getLast hr hlast

lemma headSeq_lt (h : History P chain s all)
    (hr : r ∈ chainRows P (currentHead s) events) : headSeq s < r.seq := by
  have habove : ∀ (events : List Event) (head : Option (ℤ × Bytes)), ∀ r ∈ chainRows P head events,
      (head.map (·.1)).getD 0 < r.seq := by
    intro events
    induction events with
    | nil =>
        intro head r hr
        exact absurd hr List.not_mem_nil
    | cons event events ih =>
        intro head r hr
        have hfirst : (head.map (·.1)).getD 0 < (chainRow P event head).seq := by
          cases head with
          | none => exact Int.zero_lt_one
          | some p => exact Int.lt_succ p.1
        rcases List.mem_cons.mp hr with rfl | hr
        · exact hfirst
        · exact hfirst.trans (ih _ r hr)
  have hhead : headSeq s = ((currentHead s).map (·.1)).getD 0 := by
    rw [h.headSeq_eq, h.currentHead_eq]
    simp [Option.map_map, Function.comp_def]
  rw [hhead]
  exact habove events _ r hr

lemma headSeq_le_record {all : List AuditEvent} (h : History P (chainId tenantId) s all)
    (hof : ∀ e ∈ events, e.tenantId = tenantId) : headSeq s ≤ headSeq (recordChain P s events) := by
  have h' := h.record hof
  cases hnew : chainRows P (currentHead s) events with
  | nil =>
      rw [hnew, List.append_nil] at h'
      rw [h.headSeq_eq, h'.headSeq_eq]
  | cons r rest =>
      have hr : r ∈ chainRows P (currentHead s) events := by
        rw [hnew]
        exact List.mem_cons_self
      exact le_of_lt ((h.headSeq_lt hr).trans_le (h'.le_headSeq (List.mem_append_right _ hr)))

end History

/-! ## Pages -/

/-- The last row of a page is above the number it was asked after, and the page holds every row up to
there. -/
lemma chainPage_covers {s : ChainStore} (h : Ordered s.rows) {after : ℤ} {limit : ℕ} {last : AuditEvent}
    (hlast : (chainPage s (some after) limit).getLast? = some last) :
    last ∈ s.rows ∧ ∀ r ∈ s.rows, after < r.seq → r.seq ≤ last.seq →
      r ∈ chainPage s (some after) limit := by
  rw [chainPage_eq h] at hlast ⊢
  have hmem := List.mem_of_getLast? hlast
  have hsub : ∀ r ∈ rowsAfter s (some after), r ∈ s.rows := fun r hr => (List.mem_filter.mp hr).1
  refine ⟨hsub last (List.mem_of_mem_take hmem), ?_⟩
  intro r hr hafter hle
  have hr' : r ∈ rowsAfter s (some after) := by
    rw [rowsAfter_some, List.mem_filter]
    exact ⟨hr, decide_eq_true hafter⟩
  have hord : Ordered (rowsAfter s (some after)) := h.filter _
  rw [Ordered, Increasing, ← List.take_append_drop limit (rowsAfter s (some after))] at hord
  rw [← List.take_append_drop limit (rowsAfter s (some after)), List.mem_append] at hr'
  -- a row behind the page has a higher number than its last row
  refine hr'.resolve_right fun hdrop => ?_
  have := (List.pairwise_append.mp hord).2.2 last hmem r hdrop
  omega

lemma mem_of_mem_expiredRows {s : ChainStore} {upTo : ℤ} {batch : ℕ}
    (hr : r ∈ expiredRows s upTo batch) : r ∈ s.rows := by
  have := List.mem_of_mem_take hr
  rw [orderBySeq, List.mem_insertionSort] at this
  exact (List.mem_filter.mp this).1

lemma kept_by_purgePrefix {s : ChainStore} {upTo : ℤ} {batch : ℕ} :
    r ∈ (purgePrefix s upTo batch).rows ↔ r ∈ s.rows ∧ r ∉ expiredRows s upTo batch := by
  simp [purgePrefix]

/-! ## One chain -/

/-- What the sink, the writer and retention keep of a chain whose export started at the head `start`.
`gone`: a row that is no longer stored was behind the cursor when it went, or it was noted. -/
structure Followed (P : Primitives) (id : Uuid128) (start : ℤ) (s : SunkChain) (l : Ledger) :
    Prop where
  history : History P id s.store l.appended
  started : start ≤ s.cursor
  behind : s.cursor ≤ headSeq s.store
  noted : ∀ r ∈ l.removed, r ∈ l.appended ∧ r ∉ s.store.rows
  gone : ∀ r ∈ l.appended, r ∉ s.store.rows → s.cursor < r.seq → r ∈ l.removed

/-- Every row between the start and the cursor was delivered, or removed before the cursor passed it. -/
def SkipsNothing (start : ℤ) (s : SunkChain) (l : Ledger) : Prop :=
  ∀ r ∈ l.appended, start < r.seq → r.seq ≤ s.cursor → r ∈ l.delivered ∨ r ∈ l.removed

/-- What can have become of a chain meanwhile: it went on. -/
structure Later (s : SunkChain) (l : Ledger) (s' : SunkChain) (l' : Ledger) : Prop where
  cursor : s.cursor ≤ s'.cursor
  head : headSeq s.store ≤ headSeq s'.store
  appended : ∀ r ∈ l'.appended, r ∈ l.appended ∨ headSeq s.store < r.seq
  delivered : ∀ r ∈ l.delivered, r ∈ l'.delivered
  removed : ∀ r ∈ l.removed, r ∈ l'.removed

lemma Later.refl (s : SunkChain) (l : Ledger) : Later s l s l :=
  ⟨le_rfl, le_rfl, fun _ hr => Or.inl hr, fun _ hr => hr, fun _ hr => hr⟩

section Chain

variable {P : Primitives} {id : Uuid128} {start : ℤ} {s : SunkChain} {l : Ledger}

/-- **An append** comes in above the cursor. -/
lemma Followed.record {tenantId : Option Uuid128} (h : Followed P (chainId tenantId) start s l)
    (hof : ∀ e ∈ events, e.tenantId = tenantId) :
    let s' : SunkChain := { s with store := recordChain P s.store events }
    let l' : Ledger := { l with appended := l.appended ++ chainRows P (currentHead s.store) events }
    Followed P (chainId tenantId) start s' l' ∧ Later s l s' l' ∧
      (SkipsNothing start s l → SkipsNothing start s' l') := by
  intro s' l'
  have hhead := h.history.headSeq_le_record hof
  have hnew : ∀ r ∈ l'.appended, r ∈ l.appended ∨ headSeq s.store < r.seq := by
    intro r hr
    rcases List.mem_append.mp hr with hr | hr
    · exact Or.inl hr
    · exact Or.inr (h.history.headSeq_lt hr)
  have hrows : s'.store.rows = s.store.rows ++ chainRows P (currentHead s.store) events :=
    rows_recordChain P s.store events
  refine ⟨⟨h.history.record hof, h.started, h.behind.trans hhead, ?_, ?_⟩,
    ⟨le_rfl, hhead, hnew, fun _ hr => hr, fun _ hr => hr⟩, ?_⟩
  · intro r hr
    obtain ⟨happended, hstored⟩ := h.noted r hr
    refine ⟨List.mem_append_left _ happended, ?_⟩
    rw [hrows, List.mem_append, not_or]
    -- a row has one number, and the new ones stand above the head
    refine ⟨hstored, fun hr' => ?_⟩
    have := h.history.le_headSeq happended
    have := h.history.headSeq_lt hr'
    omega
  · intro r hr hstored hcursor
    rw [hrows, List.mem_append, not_or] at hstored
    exact h.gone r ((List.mem_append.mp hr).resolve_right hstored.2) hstored.1 hcursor
  · intro hskips r hr hstart hcursor
    have hold : r ∈ l.appended := by
      refine (hnew r hr).resolve_right fun habove => ?_
      have : r.seq ≤ s.cursor := hcursor
      have := h.behind
      omega
    exact hskips r hold hstart hcursor

/-- **A batch of retention** takes rows behind the cursor, or they are noted. -/
lemma Followed.purge (h : Followed P id start s l) (upTo : ℤ) :
    let ahead := (expiredRows s.store upTo purgeBatch).filter fun r => s.cursor < r.seq
    let s' : SunkChain := { s with store := purgePrefix s.store upTo purgeBatch }
    let l' : Ledger := { l with removed := l.removed ++ ahead }
    Followed P id start s' l' ∧ Later s l s' l' ∧
      (SkipsNothing start s l → SkipsNothing start s' l') := by
  intro ahead s' l'
  have hremoved : ∀ r ∈ l.removed, r ∈ l'.removed := fun r hr => List.mem_append_left _ hr
  refine ⟨⟨h.history.purgePrefix upTo purgeBatch, h.started, h.behind, ?_, ?_⟩,
    ⟨le_rfl, le_rfl, fun _ hr => Or.inl hr, fun _ hr => hr, hremoved⟩, ?_⟩
  · intro r hr
    rw [kept_by_purgePrefix]
    rcases List.mem_append.mp hr with hr | hr
    · obtain ⟨happended, hstored⟩ := h.noted r hr
      exact ⟨happended, fun hkept => hstored hkept.1⟩
    · have hexpired := (List.mem_filter.mp hr).1
      refine ⟨h.history.rows_subset r (mem_of_mem_expiredRows hexpired), fun hkept => ?_⟩
      exact hkept.2 hexpired
  · intro r hr hstored hcursor
    rw [kept_by_purgePrefix, not_and, not_not] at hstored
    by_cases hbefore : r ∈ s.store.rows
    · exact List.mem_append_right _ (List.mem_filter.mpr ⟨hstored hbefore, decide_eq_true hcursor⟩)
    · exact hremoved r (h.gone r hr hbefore hcursor)
  · intro hskips r hr hstart hcursor
    exact (hskips r hr hstart hcursor).imp_right (hremoved r)

/-- **The cursor moves** no further than the head. -/
lemma Followed.advance (h : Followed P id start s l) {seq : ℤ} (hseq : seq ≤ headSeq s.store)
    (now : Instant) :
    let s' : SunkChain := { s with sinkSeq := some (max s.cursor seq), sinkAt := some now }
    Followed P id start s' l ∧ Later s l s' l := by
  intro s'
  have hcursor : s.cursor ≤ s'.cursor := le_max_left _ _
  refine ⟨⟨h.history, h.started.trans hcursor, max_le h.behind hseq, h.noted, ?_⟩,
    ⟨hcursor, le_rfl, fun _ hr => Or.inl hr, fun _ hr => hr, fun _ hr => hr⟩⟩
  intro r hr hstored hlt
  exact h.gone r hr hstored (lt_of_le_of_lt hcursor hlt)

/-- **A delivery** only adds to what was delivered. -/
lemma Followed.deliver (h : Followed P id start s l) (rows : List AuditEvent) :
    let l' : Ledger := { l with delivered := l.delivered ++ rows }
    Followed P id start s l' ∧ Later s l s l' ∧ (SkipsNothing start s l → SkipsNothing start s l') := by
  intro l'
  have hdelivered : ∀ r ∈ l.delivered, r ∈ l'.delivered := fun r hr => List.mem_append_left _ hr
  refine ⟨⟨h.history, h.started, h.behind, h.noted, h.gone⟩,
    ⟨le_rfl, le_rfl, fun _ hr => Or.inl hr, hdelivered, fun _ hr => hr⟩, ?_⟩
  intro hskips r hr hstart hcursor
  exact (hskips r hr hstart hcursor).imp_left (hdelivered r)

/-- The rows above `after` and up to `last` were delivered, removed, or are among `rows`. -/
def Covered (s : SunkChain) (l : Ledger) (after last : ℤ) (rows : List AuditEvent) : Prop :=
  last ≤ headSeq s.store ∧ ∀ r ∈ l.appended, after < r.seq → r.seq ≤ last →
    r ∈ rows ∨ r ∈ l.delivered ∨ r ∈ l.removed

lemma Covered.later {s' : SunkChain} {l' : Ledger} {after last : ℤ} {rows : List AuditEvent}
    (h : Covered s l after last rows) (hlater : Later s l s' l') : Covered s' l' after last rows := by
  refine ⟨h.1.trans hlater.head, ?_⟩
  intro r hr hafter hle
  have hold : r ∈ l.appended := by
    refine (hlater.appended r hr).resolve_right fun habove => ?_
    have := h.1
    omega
  rcases h.2 r hold hafter hle with hrows | hdelivered | hremoved
  · exact Or.inl hrows
  · exact Or.inr (Or.inl (hlater.delivered r hdelivered))
  · exact Or.inr (Or.inr (hlater.removed r hremoved))

/-- **A page covers the rows up to its last one**, while nothing was skipped. -/
lemma Followed.page (h : Followed P id start s l) (hskips : SkipsNothing start s l) {after : ℤ}
    (hafter : start ≤ after) {limit : ℕ} {last : AuditEvent}
    (hlast : (chainPage s.store (some after) limit).getLast? = some last) :
    Covered s l after last.seq (chainPage s.store (some after) limit) := by
  obtain ⟨hmem, hpage⟩ := chainPage_covers h.history.rows_honest.ordered hlast
  refine ⟨h.history.le_headSeq (h.history.rows_subset last hmem), ?_⟩
  intro r hr hlt hle
  by_cases hstored : r ∈ s.store.rows
  · exact Or.inl (hpage r hstored hlt hle)
  · -- it is gone: from behind the cursor, or it was noted
    refine Or.inr ?_
    by_cases hcursor : s.cursor < r.seq
    · exact Or.inr (h.gone r hr hstored hcursor)
    · exact hskips r hr (lt_of_le_of_lt hafter hlt) (not_lt.mp hcursor)

lemma SkipsNothing.advance (hskips : SkipsNothing start s l) {after last : ℤ}
    (hcovered : Covered s l after last []) (hafter : after ≤ s.cursor) (now : Instant) :
    SkipsNothing start { s with sinkSeq := some (max s.cursor last), sinkAt := some now } l := by
  intro r hr hstart hcursor
  by_cases hold : r.seq ≤ s.cursor
  · exact hskips r hr hstart hold
  · have hle : r.seq ≤ last := (le_max_iff.mp hcursor).resolve_left hold
    have hlt : after < r.seq := lt_of_le_of_lt hafter (not_le.mp hold)
    exact (hcovered.2 r hr hlt hle).resolve_left List.not_mem_nil

/-- No stored row in front of the cursor waits for its delivery. -/
def NoneWaiting (s : SunkChain) (l : Ledger) : Prop :=
  ∀ r ∈ s.store.rows, s.cursor < r.seq → r ∈ l.delivered

instance (s : SunkChain) (l : Ledger) : Decidable (NoneWaiting s l) :=
  inferInstanceAs (Decidable (∀ r ∈ s.store.rows, s.cursor < r.seq → r ∈ l.delivered))

/-- **Moving to the head** skips nothing exactly when nothing waits. -/
lemma Followed.movePast_iff (h : Followed P id start s l) (hskips : SkipsNothing start s l)
    (now : Instant) :
    SkipsNothing start
        { s with sinkSeq := some (max s.cursor (headSeq s.store)), sinkAt := some now } l ↔
      NoneWaiting s l := by
  constructor
  · intro hall r hr hcursor
    have happended := h.history.rows_subset r hr
    have hle : r.seq ≤ max s.cursor (headSeq s.store) :=
      (h.history.le_headSeq happended).trans (le_max_right _ _)
    refine (hall r happended (lt_of_le_of_lt h.started hcursor) hle).resolve_right fun hremoved => ?_
    exact (h.noted r hremoved).2 hr
  · intro hnone r hr hstart _
    by_cases hold : r.seq ≤ s.cursor
    · exact hskips r hr hstart hold
    · by_cases hstored : r ∈ s.store.rows
      · exact Or.inl (hnone r hstored (not_le.mp hold))
      · exact Or.inr (h.gone r hr hstored (not_le.mp hold))

end Chain

/-! ## The database -/

/-- The export of the database has started at `heads`, and its destination stays. -/
structure Exporting (P : Primitives) (sink : String) (heads : Uuid128 → ℤ) (g : ExportWorld) :
    Prop where
  target : g.tables.target = some sink
  followed : ∀ id, Followed P id (heads id) (g.tables.chain id) (g.ledger id)

/-- Of no chain a row was skipped. -/
def NothingSkipped (heads : Uuid128 → ℤ) (g : ExportWorld) : Prop :=
  ∀ id, SkipsNothing (heads id) (g.tables.chain id) (g.ledger id)

/-- Every chain went on. -/
def ExportWorld.Later (g g' : ExportWorld) : Prop :=
  ∀ id, Audit.Later (g.tables.chain id) (g.ledger id) (g'.tables.chain id) (g'.ledger id)

lemma ExportWorld.Later.refl (g : ExportWorld) : g.Later g := fun _ => Audit.Later.refl _ _

section Database

variable {P : Primitives} {sink : String} {heads : Uuid128 → ℤ} {g g' : ExportWorld} {id : Uuid128}

/-- A step on one chain leaves the others as they were. -/
structure OnChain (g g' : ExportWorld) (id : Uuid128) : Prop where
  target : g'.tables.target = g.tables.target
  chain : ∀ c, c ≠ id → g'.tables.chain c = g.tables.chain c
  ledger : ∀ c, c ≠ id → g'.ledger c = g.ledger c

lemma Exporting.onChain (h : Exporting P sink heads g) (hon : OnChain g g' id)
    (hfollowed : Followed P id (heads id) (g'.tables.chain id) (g'.ledger id))
    (hlater : Audit.Later (g.tables.chain id) (g.ledger id) (g'.tables.chain id) (g'.ledger id)) :
    Exporting P sink heads g' ∧ g.Later g' := by
  refine ⟨⟨hon.target.trans h.target, fun c => ?_⟩, fun c => ?_⟩
  · by_cases hc : c = id
    · rw [hc]
      exact hfollowed
    · rw [hon.chain c hc, hon.ledger c hc]
      exact h.followed c
  · by_cases hc : c = id
    · rw [hc]
      exact hlater
    · rw [hon.chain c hc, hon.ledger c hc]
      exact Audit.Later.refl _ _

lemma NothingSkipped.onChain_iff (hskips : NothingSkipped heads g) (hon : OnChain g g' id) :
    NothingSkipped heads g' ↔ SkipsNothing (heads id) (g'.tables.chain id) (g'.ledger id) := by
  refine ⟨fun hall => hall id, fun hid c => ?_⟩
  by_cases hc : c = id
  · rw [hc]
    exact hid
  · rw [hon.chain c hc, hon.ledger c hc]
    exact hskips c

lemma onChain_record (g : ExportWorld) (tenantId : Option Uuid128) (events : List Event) :
    OnChain g (g.record P tenantId events) (chainId tenantId) where
  target := rfl
  chain _ hc := g.tables.setChain_of_ne hc _
  ledger _ hc := g.note_of_ne hc _

lemma onChain_purge (g : ExportWorld) (id : Uuid128) (upTo : ℤ) : OnChain g (g.purge id upTo) id where
  target := rfl
  chain _ hc := g.tables.setChain_of_ne hc _
  ledger _ hc := g.note_of_ne hc _

lemma onChain_deliver (g : ExportWorld) (id : Uuid128) (rows : List AuditEvent) :
    OnChain g (g.deliver id rows) id where
  target := rfl
  chain _ _ := rfl
  ledger _ hc := g.note_of_ne hc _

lemma advanceSink_eq {t : SinkTables} {id : Uuid128} {e : ChainEntry}
    (he : (t.chain id).store.entry = some e) (seq : ℤ) (now : Instant) :
    t.advanceSink id seq now = t.setChain id
      { t.chain id with sinkSeq := some (max (t.chain id).cursor seq), sinkAt := some now } := by
  simp only [SinkTables.advanceSink, he]

lemma movePast_eq {t : SinkTables} {id : Uuid128} {e : ChainEntry}
    (he : (t.chain id).store.entry = some e) (now : Instant) :
    t.movePast id now = t.setChain id
      { t.chain id with
        sinkSeq := some (max (t.chain id).cursor (headSeq (t.chain id).store)), sinkAt := some now } := by
  simp only [SinkTables.movePast, he, advanceSink_eq he, headSeq, Option.map_some, Option.getD_some]

lemma onChain_setChain (g : ExportWorld) (id : Uuid128) (s : SunkChain) :
    OnChain g { g with tables := g.tables.setChain id s } id where
  target := rfl
  chain _ hc := g.tables.setChain_of_ne hc _
  ledger _ _ := rfl

lemma Exporting.record (h : Exporting P sink heads g) {tenantId : Option Uuid128}
    (hof : ∀ e ∈ events, e.tenantId = tenantId) :
    Exporting P sink heads (g.record P tenantId events) ∧ g.Later (g.record P tenantId events) ∧
      (NothingSkipped heads g → NothingSkipped heads (g.record P tenantId events)) := by
  obtain ⟨hfollowed, hlater, hskip⟩ := (h.followed (chainId tenantId)).record hof
  have hon := onChain_record (P := P) g tenantId events
  have hchain : (g.record P tenantId events).tables.chain (chainId tenantId) = _ :=
    g.tables.setChain_self _ _
  have hledger : (g.record P tenantId events).ledger (chainId tenantId) = _ := g.note_self _ _
  rw [← hchain, ← hledger] at hfollowed hlater hskip
  obtain ⟨hexporting, hlater'⟩ := h.onChain hon hfollowed hlater
  exact ⟨hexporting, hlater', fun hskips => (hskips.onChain_iff hon).mpr (hskip (hskips _))⟩

lemma Exporting.purge (h : Exporting P sink heads g) (id : Uuid128) (upTo : ℤ) :
    Exporting P sink heads (g.purge id upTo) ∧ g.Later (g.purge id upTo) ∧
      (NothingSkipped heads g → NothingSkipped heads (g.purge id upTo)) := by
  obtain ⟨hfollowed, hlater, hskip⟩ := (h.followed id).purge upTo
  have hon := onChain_purge g id upTo
  have hchain : (g.purge id upTo).tables.chain id = _ := g.tables.setChain_self _ _
  have hledger : (g.purge id upTo).ledger id = _ := g.note_self _ _
  rw [← hchain, ← hledger] at hfollowed hlater hskip
  obtain ⟨hexporting, hlater'⟩ := h.onChain hon hfollowed hlater
  exact ⟨hexporting, hlater', fun hskips => (hskips.onChain_iff hon).mpr (hskip (hskips _))⟩

lemma Exporting.deliver (h : Exporting P sink heads g) (id : Uuid128) (rows : List AuditEvent) :
    Exporting P sink heads (g.deliver id rows) ∧ g.Later (g.deliver id rows) ∧
      (NothingSkipped heads g → NothingSkipped heads (g.deliver id rows)) := by
  obtain ⟨hfollowed, hlater, hskip⟩ := (h.followed id).deliver rows
  have hon := onChain_deliver g id rows
  have hledger : (g.deliver id rows).ledger id = _ := g.note_self _ _
  rw [← hledger] at hfollowed hlater hskip
  obtain ⟨hexporting, hlater'⟩ := h.onChain hon hfollowed hlater
  exact ⟨hexporting, hlater', fun hskips => (hskips.onChain_iff hon).mpr (hskip (hskips _))⟩

lemma Exporting.setCursor (h : Exporting P sink heads g) (id : Uuid128) {seq : ℤ}
    (hseq : seq ≤ headSeq (g.tables.chain id).store) (now : Instant) :
    let s : SunkChain := { g.tables.chain id with
      sinkSeq := some (max (g.tables.chain id).cursor seq), sinkAt := some now }
    let g' : ExportWorld := { g with tables := g.tables.setChain id s }
    Exporting P sink heads g' ∧ g.Later g' ∧
      (NothingSkipped heads g → (NothingSkipped heads g' ↔ SkipsNothing (heads id) s (g.ledger id))) := by
  intro s g'
  obtain ⟨hfollowed, hlater⟩ := (h.followed id).advance hseq now
  have hon := onChain_setChain g id s
  have hchain : g'.tables.chain id = s := g.tables.setChain_self _ _
  rw [show ({ g.tables.chain id with
    sinkSeq := some (max (g.tables.chain id).cursor seq), sinkAt := some now } : SunkChain) = s from rfl,
    ← hchain] at hfollowed hlater
  obtain ⟨hexporting, hlater'⟩ := h.onChain hon hfollowed hlater
  refine ⟨hexporting, hlater', fun hskips => ?_⟩
  rw [hskips.onChain_iff hon, hchain]

/-- **The cursor moves behind a delivery**: nothing is skipped. -/
lemma Exporting.advanceSink (h : Exporting P sink heads g) {id : Uuid128} {after last : ℤ}
    (hafter : after ≤ (g.tables.chain id).cursor)
    (hcovered : Covered (g.tables.chain id) (g.ledger id) after last []) (now : Instant) :
    let g' : ExportWorld := { g with tables := g.tables.advanceSink id last now }
    Exporting P sink heads g' ∧ g.Later g' ∧ (NothingSkipped heads g → NothingSkipped heads g') := by
  cases he : (g.tables.chain id).store.entry with
  | none =>
      simp only [SinkTables.advanceSink, he]
      exact ⟨h, ExportWorld.Later.refl g, fun hskips => hskips⟩
  | some e =>
      simp only [advanceSink_eq he]
      obtain ⟨hexporting, hlater, hiff⟩ := h.setCursor id hcovered.1 now
      exact ⟨hexporting, hlater, fun hskips => (hiff hskips).mpr ((hskips id).advance hcovered hafter now)⟩

/-- **The cursor moves to the head**: nothing is skipped exactly when nothing waits. -/
lemma Exporting.movePast (h : Exporting P sink heads g) (id : Uuid128) (now : Instant) :
    let g' : ExportWorld := { g with tables := g.tables.movePast id now }
    Exporting P sink heads g' ∧ g.Later g' ∧ (NothingSkipped heads g →
      (NothingSkipped heads g' ↔ NoneWaiting (g.tables.chain id) (g.ledger id))) := by
  cases he : (g.tables.chain id).store.entry with
  | none =>
      simp only [SinkTables.movePast, he]
      refine ⟨h, ExportWorld.Later.refl g, fun hskips => iff_of_true hskips ?_⟩
      intro r hr
      rw [(h.followed id).history.rows_of_no_entry he] at hr
      exact absurd hr List.not_mem_nil
  | some e =>
      simp only [movePast_eq he]
      obtain ⟨hexporting, hlater, hiff⟩ := h.setCursor id le_rfl now
      exact ⟨hexporting, hlater, fun hskips =>
        (hiff hskips).trans ((h.followed id).movePast_iff (hskips id) now)⟩

end Database

/-! ## Passes among each other -/

/-- The chains a pass has in hand, as it read them. -/
def SinkPass.chains : SinkPass → List Pending
  | .shipping pending _ => pending
  | .emptied chain pending _ => chain :: pending
  | .delivering chain _ _ pending _ => chain :: pending
  | .taken chain _ _ pending _ => chain :: pending
  | _ => []

/-- What stands behind a page that was read: it covers the rows up to its last one. -/
def SinkPass.Covers (g : ExportWorld) : SinkPass → Prop
  | .delivering chain rows last _ _ =>
      Covered (g.tables.chain chain.chainId) (g.ledger chain.chainId) chain.sinkSeq last.seq rows
  | .taken chain _ last _ _ =>
      Covered (g.tables.chain chain.chainId) (g.ledger chain.chainId) chain.sinkSeq last.seq []
  | _ => True

/-- A cursor a pass has read is not in front of the chain's. -/
def Pending.Read (heads : Uuid128 → ℤ) (g : ExportWorld) (p : Pending) : Prop :=
  heads p.chainId ≤ p.sinkSeq ∧ p.sinkSeq ≤ (g.tables.chain p.chainId).cursor

/-- A pass that has read its chains and covers them. -/
structure SinkPass.UnderWay (heads : Uuid128 → ℤ) (g : ExportWorld) (l : SinkPass) : Prop where
  read : ∀ p ∈ l.chains, p.Read heads g
  covers : l.Covers g

/-- A pass that found its page empty would find it so again. -/
def SinkPass.StillEmpty (g : ExportWorld) : SinkPass → Prop
  | .emptied chain _ _ => ∀ r ∈ (g.tables.chain chain.chainId).store.rows, r.seq ≤ chain.sinkSeq
  | _ => True

/-- A pass that found its page empty and moves the cursor now leaves no row waiting. -/
def MovesPastNothing (g : ExportWorld) : SinkPass → SinkDraw → Prop
  | .emptied chain _ _, .done _ => NoneWaiting (g.tables.chain chain.chainId) (g.ledger chain.chainId)
  | _, _ => True

instance (g : ExportWorld) (l : SinkPass) (d : SinkDraw) : Decidable (MovesPastNothing g l d) :=
  match l, d with
  | .emptied chain _ _, .done _ => inferInstanceAs
      (Decidable (NoneWaiting (g.tables.chain chain.chainId) (g.ledger chain.chainId)))
  | .emptied .., .fails | .idle, _ | .shipping .., _ | .delivering .., _ | .taken .., _ | .failed _, _
  | .finished .., _ | .aborted, _ => .isTrue trivial

section Passes

variable {P : Primitives} {sink : String} {heads : Uuid128 → ℤ} {g g' : ExportWorld}

lemma SinkPass.UnderWay.later {l : SinkPass} (h : l.UnderWay heads g) (hlater : g.Later g') :
    l.UnderWay heads g' := by
  refine ⟨fun p hp => ?_, ?_⟩
  · obtain ⟨hstart, hcursor⟩ := h.read p hp
    exact ⟨hstart, hcursor.trans (hlater p.chainId).cursor⟩
  · have hcovers := h.covers
    cases l with
    | delivering chain rows last pending shipped => exact Covered.later hcovers (hlater chain.chainId)
    | taken chain rows last pending shipped => exact Covered.later hcovers (hlater chain.chainId)
    | _ => trivial

lemma mem_pending {t : SinkTables} {limit : ℕ} {p : Pending} (hp : p ∈ t.pending limit) :
    p.sinkSeq = (t.chain p.chainId).cursor := by
  obtain ⟨id, -, rfl⟩ := List.mem_map.mp hp
  rfl

lemma le_of_page_empty {s : ChainStore} (h : Ordered s.rows) {after : ℤ}
    (hpage : (chainPage s (some after) sinkBatch).getLast? = none) : ∀ r ∈ s.rows, r.seq ≤ after := by
  rw [List.getLast?_eq_none_iff, chainPage_eq h, List.take_eq_nil_iff, rowsAfter_some,
    List.filter_eq_nil_iff] at hpage
  intro r hr
  simpa using hpage.resolve_left (by decide) r hr

lemma SinkPass.UnderWay.shipping {pending : List Pending} {shipped : ℕ}
    (hread : ∀ p ∈ pending, p.Read heads g) : (SinkPass.shipping pending shipped).UnderWay heads g :=
  ⟨hread, trivial⟩

lemma SinkPass.UnderWay.ended {l : SinkPass} (hchains : l.chains = []) (hcovers : l.Covers g) :
    l.UnderWay heads g := by
  refine ⟨fun p hp => ?_, hcovers⟩
  rw [hchains] at hp
  exact absurd hp List.not_mem_nil

/-- **One step of a pass**, from a database of which nothing was skipped: something is skipped
exactly by moving past what waits. -/
lemma databasePass_step (h : Exporting P sink heads g) (hskips : NothingSkipped heads g) {l l' : SinkPass}
    (hl : l.UnderWay heads g) {d : SinkDraw} (hstep : databasePass sink g l d = some (g', l')) :
    Exporting P sink heads g' ∧ g.Later g' ∧ (l'.UnderWay heads g' ∧ l'.StillEmpty g') ∧
      (NothingSkipped heads g' ↔ MovesPastNothing g l d) := by
  have hstays : ∀ {l' : SinkPass}, l'.UnderWay heads g ∧ l'.StillEmpty g → MovesPastNothing g l d →
      Exporting P sink heads g ∧ g.Later g ∧ (l'.UnderWay heads g ∧ l'.StillEmpty g) ∧
        (NothingSkipped heads g ↔ MovesPastNothing g l d) :=
    fun hl' hmoves => ⟨h, ExportWorld.Later.refl g, hl', iff_of_true hskips hmoves⟩
  have hread := hl.read
  cases l with
  | idle =>
      cases d with
      | fails =>
          cases hstep
          exact hstays ⟨.ended rfl trivial, trivial⟩ trivial
      | done now =>
          have hstarted : g.tables.ensureStarted sink now = g.tables := if_pos h.target
          simp only [databasePass, hstarted] at hstep
          cases hpending : g.tables.pending chainsPerPass with
          | nil =>
              rw [hpending] at hstep
              cases hstep
              exact hstays ⟨.ended rfl trivial, trivial⟩ trivial
          | cons p pending =>
              rw [hpending] at hstep
              cases hstep
              refine hstays ⟨.shipping fun q hq => ?_, trivial⟩ trivial
              have hq' := mem_pending (hpending ▸ hq)
              rw [Pending.Read, hq']
              exact ⟨(h.followed q.chainId).started, le_rfl⟩
  | shipping pending shipped =>
      cases d with
      | fails =>
          cases pending <;> cases hstep <;> exact hstays ⟨.ended rfl trivial, trivial⟩ trivial
      | done now =>
          cases pending with
          | nil =>
              cases hstep
              exact hstays ⟨.ended rfl trivial, trivial⟩ trivial
          | cons chain pending =>
              simp only [databasePass] at hstep
              split at hstep
              · rename_i hpage
                cases hstep
                have hordered := (h.followed chain.chainId).history.rows_honest.ordered
                exact hstays ⟨⟨hread, trivial⟩, le_of_page_empty hordered hpage⟩ trivial
              · rename_i last hlast
                cases hstep
                refine hstays ⟨⟨hread, ?_⟩, trivial⟩ trivial
                exact (h.followed chain.chainId).page (hskips chain.chainId)
                  (hread chain List.mem_cons_self).1 hlast
  | emptied chain pending shipped =>
      cases d with
      | fails =>
          cases hstep
          exact hstays ⟨.ended rfl trivial, trivial⟩ trivial
      | done now =>
          cases hstep
          obtain ⟨hexporting, hlater, hiff⟩ := h.movePast chain.chainId now
          refine ⟨hexporting, hlater, ⟨.shipping fun p hp => ?_, trivial⟩, hiff hskips⟩
          exact (hl.later hlater).read p (List.mem_cons_of_mem _ hp)
  | delivering chain rows last pending shipped =>
      cases d with
      | fails =>
          cases hstep
          exact hstays ⟨.ended rfl trivial, trivial⟩ trivial
      | done now =>
          cases hstep
          obtain ⟨hexporting, hlater, hskip⟩ := h.deliver chain.chainId rows
          have hcovers : Covered _ _ chain.sinkSeq last.seq rows := (hl.later hlater).covers
          refine ⟨hexporting, hlater, ⟨⟨(hl.later hlater).read, hcovers.1, ?_⟩, trivial⟩,
            iff_of_true (hskip hskips) trivial⟩
          intro r hr hafter hle
          -- the page has been delivered
          rcases hcovers.2 r hr hafter hle with hrows | hdone
          · refine Or.inr (Or.inl ?_)
            have hledger : (g.deliver chain.chainId rows).ledger chain.chainId = _ := g.note_self _ _
            rw [hledger]
            exact List.mem_append_right _ hrows
          · exact Or.inr hdone
  | taken chain rows last pending shipped =>
      cases d with
      | fails =>
          cases hstep
          exact hstays ⟨.ended rfl trivial, trivial⟩ trivial
      | done now =>
          cases hstep
          have hcovers : Covered _ _ chain.sinkSeq last.seq [] := hl.covers
          obtain ⟨hexporting, hlater, hskip⟩ :=
            h.advanceSink (hread chain List.mem_cons_self).2 hcovers now
          refine ⟨hexporting, hlater, ⟨.shipping fun p hp => ?_, trivial⟩,
            iff_of_true (hskip hskips) trivial⟩
          exact (hl.later hlater).read p (List.mem_cons_of_mem _ hp)
  | failed shipped =>
      cases d with
      | fails =>
          cases hstep
          exact hstays ⟨.ended rfl trivial, trivial⟩ trivial
      | done now =>
          cases hstep
          exact hstays ⟨.ended rfl trivial, trivial⟩ trivial
  | finished shipped failed behind => cases hstep
  | aborted => cases hstep

end Passes

/-- Nothing is appended to a chain between the empty page that a pass has read of it and the pass's next
step. -/
def AppendsApart {ι : Type*} (w : Pool ι ExportWorld SinkPass) : Pick ι SinkDraw ChainEvent → Prop
  | .env (.record tenantId _) => ∀ i chain pending shipped,
      w.calls i = .emptied chain pending shipped → chain.chainId ≠ chainId tenantId
  | _ => True

/-- The condition on one step of an export: a pass that found its page empty moves the cursor only
while no stored row in front of it waits for its delivery. -/
def MovesPastNothingAt {ι : Type*} (w : Pool ι ExportWorld SinkPass) : Pick ι SinkDraw ChainEvent → Prop
  | .call i d => MovesPastNothing w.shared (w.calls i) d
  | .env _ => True

instance {ι : Type*} (w : Pool ι ExportWorld SinkPass) (a : Pick ι SinkDraw ChainEvent) :
    Decidable (MovesPastNothingAt w a) :=
  match a with
  | .call i d => inferInstanceAs (Decidable (MovesPastNothing w.shared (w.calls i) d))
  | .env _ => .isTrue trivial

section Runs

variable {ι : Type*} [DecidableEq ι] {P : Primitives} {sink : String} {heads : Uuid128 → ℤ}

variable {w w' : Pool ι ExportWorld SinkPass} {a : Pick ι SinkDraw ChainEvent}

/-- What holds of the database and of every pass. -/
structure ExportInv (P : Primitives) (sink : String) (heads : Uuid128 → ℤ)
    (w : Pool ι ExportWorld SinkPass) : Prop where
  exporting : Exporting P sink heads w.shared
  underWay : ∀ i, (w.calls i).UnderWay heads w.shared

lemma exportInv_step (h : ExportInv P sink heads w) (hskips : NothingSkipped heads w.shared)
    (hstep : (exportCalls P sink ι).machine.step w a = some w') :
    ExportInv P sink heads w' ∧ (NothingSkipped heads w'.shared ↔ MovesPastNothingAt w a) := by
  cases a with
  | call i d =>
      obtain ⟨g, l, hact, rfl⟩ := Calls.step_call.mp hstep
      obtain ⟨hexporting, hlater, ⟨hl, -⟩, hiff⟩ := databasePass_step h.exporting hskips (h.underWay i) hact
      refine ⟨⟨hexporting, Pool.next_forall (p := fun _ l => SinkPass.UnderWay heads g l) hl ?_⟩, hiff⟩
      exact fun j _ => (h.underWay j).later hlater
  | env e =>
      obtain ⟨g, henv, rfl⟩ := Calls.step_env.mp hstep
      have hkeeps : Exporting P sink heads g ∧ w.shared.Later g ∧
          (NothingSkipped heads w.shared → NothingSkipped heads g) := by
        cases e with
        | record tenantId events =>
            simp only [exportCalls] at henv
            split_ifs at henv with hof
            cases henv
            exact h.exporting.record hof
        | purge id upTo =>
            cases henv
            exact h.exporting.purge id upTo
      obtain ⟨hexporting, hlater, hskip⟩ := hkeeps
      exact ⟨⟨hexporting, fun j => (h.underWay j).later hlater⟩, iff_of_true (hskip hskips) trivial⟩

/-- The destination stays, and no cursor moves back. -/
def CursorsFrom (sink : String) (g g' : ExportWorld) : Prop :=
  g'.tables.target = some sink ∧ ∀ id, (g.tables.chain id).cursor ≤ (g'.tables.chain id).cursor

variable {t : SinkTables} {id : Uuid128} {s : SunkChain}

/-- What holds of the chain that is set, and of the others as they are. -/
lemma forall_setChain {p : Uuid128 → SunkChain → Prop}
    (hs : p id s) (ht : ∀ c, p c (t.chain c)) (c : Uuid128) : p c ((t.setChain id s).chain c) := by
  by_cases hc : c = id
  · subst hc
    rwa [SinkTables.setChain_self]
  · rw [SinkTables.setChain_of_ne t hc]
    exact ht c

lemma cursor_setChain (hs : (t.chain id).cursor ≤ s.cursor) :
    ∀ c, (t.chain c).cursor ≤ ((t.setChain id s).chain c).cursor :=
  forall_setChain (p := fun c s => (t.chain c).cursor ≤ s.cursor) hs fun _ => le_rfl

/-- A table of chains of which only cursors have moved, and those forward. -/
structure CursorsMoved (t t' : SinkTables) : Prop where
  target : t'.target = t.target
  cursor : ∀ c, (t.chain c).cursor ≤ (t'.chain c).cursor
  store : ∀ c, (t'.chain c).store = (t.chain c).store

lemma CursorsMoved.refl (t : SinkTables) : CursorsMoved t t := ⟨rfl, fun _ => le_rfl, fun _ => rfl⟩

lemma cursorsMoved_advanceSink (t : SinkTables) (id : Uuid128) (seq : ℤ) (now : Instant) :
    CursorsMoved t (t.advanceSink id seq now) := by
  unfold SinkTables.advanceSink
  cases (t.chain id).store.entry with
  | none => exact .refl t
  | some e =>
      exact ⟨rfl, cursor_setChain (le_max_left _ _),
        forall_setChain (p := fun c s => s.store = (t.chain c).store) rfl fun _ => rfl⟩

lemma cursorsMoved_movePast (t : SinkTables) (id : Uuid128) (now : Instant) :
    CursorsMoved t (t.movePast id now) := by
  unfold SinkTables.movePast
  cases (t.chain id).store.entry with
  | none => exact .refl t
  | some e => exact cursorsMoved_advanceSink t id e.headSeq now

lemma cursorsMoved_pass {g g' : ExportWorld} {l l' : SinkPass} {d : SinkDraw}
    (h : g.tables.target = some sink) (hstep : databasePass sink g l d = some (g', l')) :
    CursorsMoved g.tables g'.tables := by
  have hstays : CursorsMoved g.tables g.tables := .refl _
  cases l with
  | idle =>
      cases d with
      | fails =>
          cases hstep
          exact hstays
      | done now =>
          have hstarted : g.tables.ensureStarted sink now = g.tables := if_pos h
          simp only [databasePass, hstarted] at hstep
          split at hstep <;> cases hstep <;> exact hstays
  | shipping pending shipped =>
      cases d with
      | fails =>
          cases pending <;> cases hstep <;> exact hstays
      | done now =>
          cases pending with
          | nil =>
              cases hstep
              exact hstays
          | cons chain pending =>
              simp only [databasePass] at hstep
              split at hstep <;> cases hstep <;> exact hstays
  | emptied chain pending shipped =>
      cases d with
      | fails =>
          cases hstep
          exact hstays
      | done now =>
          cases hstep
          exact cursorsMoved_movePast ..
  | delivering chain rows last pending shipped => cases d <;> cases hstep <;> exact hstays
  | taken chain rows last pending shipped =>
      cases d with
      | fails =>
          cases hstep
          exact hstays
      | done now =>
          cases hstep
          exact cursorsMoved_advanceSink ..
  | failed shipped => cases d <;> cases hstep <;> exact hstays
  | finished shipped failed behind => cases hstep
  | aborted => cases hstep

lemma cursorsFrom_step (h : w.shared.tables.target = some sink)
    (hstep : (exportCalls P sink ι).machine.step w a = some w') : CursorsFrom sink w.shared w'.shared := by
  cases a with
  | call i d =>
      obtain ⟨g, l, hact, rfl⟩ := Calls.step_call.mp hstep
      have hmoved := cursorsMoved_pass h hact
      exact ⟨hmoved.target.trans h, hmoved.cursor⟩
  | env e =>
      obtain ⟨g, henv, rfl⟩ := Calls.step_env.mp hstep
      cases e with
      | record tenantId events =>
          simp only [exportCalls] at henv
          split_ifs at henv
          cases henv
          exact ⟨h, cursor_setChain (t := w.shared.tables) le_rfl⟩
      | purge id upTo =>
          cases henv
          exact ⟨h, cursor_setChain (t := w.shared.tables) le_rfl⟩

lemma cursorsFrom_run {as : List (Pick ι SinkDraw ChainEvent)}
    (h : w.shared.tables.target = some sink)
    (hrun : (exportCalls P sink ι).machine.run w as = some w') : CursorsFrom sink w.shared w'.shared := by
  refine Machine.run_inv (I := fun v => CursorsFrom sink w.shared v.shared) (C := fun _ _ => True) ?_
    (Machine.meets_of_forall (fun _ _ => trivial) _ _) hrun ⟨h, fun _ => le_rfl⟩
  rintro s a s' ⟨htarget, hcursor⟩ - hstep
  obtain ⟨htarget', hcursor'⟩ := cursorsFrom_step htarget hstep
  exact ⟨htarget', fun id => (hcursor id).trans (hcursor' id)⟩

/-- What holds while nothing is appended between an empty page and the head. -/
structure ApartInv (P : Primitives) (sink : String) (heads : Uuid128 → ℤ)
    (w : Pool ι ExportWorld SinkPass) : Prop where
  inv : ExportInv P sink heads w
  skips : NothingSkipped heads w.shared
  empty : ∀ i, (w.calls i).StillEmpty w.shared

omit [DecidableEq ι] in
lemma ApartInv.movesPastNothing {w : Pool ι ExportWorld SinkPass} (h : ApartInv P sink heads w)
    (a : Pick ι SinkDraw ChainEvent) : MovesPastNothingAt w a := by
  cases a with
  | env e => trivial
  | call i d =>
      have hempty := h.empty i
      have hread := (h.inv.underWay i).read
      rw [MovesPastNothingAt]
      cases hl : w.calls i with
      | emptied chain pending shipped =>
          rw [hl] at hempty hread
          cases d with
          | fails => trivial
          | done now =>
              intro r hr hcursor
              have hle := (hempty r hr).trans (hread chain List.mem_cons_self).2
              exact absurd hcursor (not_lt.mpr hle)
      | _ => trivial

lemma apartInv_step (h : ApartInv P sink heads w) (hapart : AppendsApart w a)
    (hstep : (exportCalls P sink ι).machine.step w a = some w') : ApartInv P sink heads w' := by
  obtain ⟨hinv, hiff⟩ := exportInv_step h.inv h.skips hstep
  refine ⟨hinv, hiff.mpr (h.movesPastNothing a), ?_⟩
  -- an empty page stays empty where no row came to its chain
  have hkept : ∀ {g : ExportWorld} (i : ι),
      (∀ chain pending shipped, w.calls i = .emptied chain pending shipped →
        ∀ r ∈ (g.tables.chain chain.chainId).store.rows,
          r ∈ (w.shared.tables.chain chain.chainId).store.rows) → (w.calls i).StillEmpty g := by
    intro g i hrows
    have hi := h.empty i
    cases hl : w.calls i with
    | emptied chain pending shipped =>
        rw [hl] at hi
        exact fun r hr => hi r (hrows chain pending shipped hl r hr)
    | _ => trivial
  cases a with
  | call i d =>
      obtain ⟨g, l, hact, rfl⟩ := Calls.step_call.mp hstep
      have hmoved := cursorsMoved_pass h.inv.exporting.target hact
      refine Pool.next_forall (p := fun _ l => SinkPass.StillEmpty g l)
        (databasePass_step h.inv.exporting h.skips (h.inv.underWay i) hact).2.2.1.2 fun j _ => ?_
      exact hkept j fun chain _ _ _ r hr => by rwa [← hmoved.store]
  | env e =>
      obtain ⟨g, henv, rfl⟩ := Calls.step_env.mp hstep
      intro i
      cases e with
      | record tenantId events =>
          simp only [exportCalls] at henv
          split_ifs at henv
          cases henv
          refine hkept i fun chain pending shipped hl r hr => ?_
          have hother := w.shared.tables.setChain_of_ne (hapart i chain pending shipped hl)
          exact hother _ ▸ hr
      | purge id upTo =>
          cases henv
          refine hkept i fun chain _ _ _ r hr => ?_
          by_cases hc : chain.chainId = id
          · subst hc
            simp only [ExportWorld.purge, SinkTables.purgePrefix, SinkTables.setChain_self,
              kept_by_purgePrefix] at hr
            exact hr.1
          · exact w.shared.tables.setChain_of_ne hc _ ▸ hr

omit [DecidableEq ι] in
lemma exportStart_inv {appended : Uuid128 → List AuditEvent} (now : Instant)
    (hhistory : ∀ id, History P id (t.chain id).store (appended id)) :
    ExportInv P sink (fun id => headSeq (t.chain id).store) (exportStart ι t sink now appended) ∧
      NothingSkipped (fun id => headSeq (t.chain id).store) (exportStart ι t sink now appended).shared := by
  have hcursor : ∀ id, ((t.startSink sink now).chain id).cursor = headSeq (t.chain id).store :=
    fun _ => rfl
  refine ⟨⟨⟨rfl, fun id => ?_⟩, fun i => .ended rfl trivial⟩, fun id r _ hstart hle => ?_⟩
  · refine ⟨hhistory id, le_of_eq (hcursor id).symm, le_of_eq (hcursor id), ?_, ?_⟩
    · intro r hr
      exact absurd hr List.not_mem_nil
    · intro r hr _ hlt
      have hle := (hhistory id).le_headSeq hr
      have hlt' : headSeq (t.chain id).store < r.seq := hlt
      omega
  · have hle' : r.seq ≤ headSeq (t.chain id).store := hle
    have hlt : headSeq (t.chain id).store < r.seq := hstart
    omega

/-- **The audit export skips nothing** exactly as long as a pass that found its page empty moves the
cursor only while no stored row in front of it waits for its delivery: so it is where nothing is appended
to a chain in between.  No cursor ever moves back. -/
theorem export_skips_nothing_iff (t : SinkTables) (now : Instant) (appended : Uuid128 → List AuditEvent)
    (hhistory : ∀ id, History P id (t.chain id).store (appended id))
    (as : List (Pick ι SinkDraw ChainEvent)) (w : Pool ι ExportWorld SinkPass)
    (hrun : (exportCalls P sink ι).machine.run (exportStart ι t sink now appended) as = some w) :
    ((∀ bs cs v, as = bs ++ cs →
        (exportCalls P sink ι).machine.run (exportStart ι t sink now appended) bs = some v →
          NothingSkipped (fun id => headSeq (t.chain id).store) v.shared) ↔
      (exportCalls P sink ι).machine.Meets MovesPastNothingAt (exportStart ι t sink now appended) as) ∧
    ((exportCalls P sink ι).machine.Meets AppendsApart (exportStart ι t sink now appended) as →
      (exportCalls P sink ι).machine.Meets MovesPastNothingAt (exportStart ι t sink now appended) as) ∧
    ∀ bs cs v, as = bs ++ cs →
      (exportCalls P sink ι).machine.run (exportStart ι t sink now appended) bs = some v →
        ∀ id, (v.shared.tables.chain id).cursor ≤ (w.shared.tables.chain id).cursor := by
  obtain ⟨hinv, hskips⟩ :
      ExportInv P sink (fun id => headSeq (t.chain id).store) (exportStart ι t sink now appended) ∧
        NothingSkipped (fun id => headSeq (t.chain id).store) (exportStart ι t sink now appended).shared :=
    exportStart_inv now hhistory
  refine ⟨?_, fun hapart => ?_, ?_⟩
  · refine Machine.always_iff_meets (I := ExportInv P sink fun id => headSeq (t.chain id).store)
      (G := fun v => NothingSkipped (fun id => headSeq (t.chain id).store) v.shared)
      (A := fun _ => True) ?_ (fun _ _ => trivial) hrun hinv hskips
    intro s a s' _ hI hG hstep
    exact exportInv_step hI hG hstep
  · exact Machine.Meets.imp (I := ApartInv P sink fun id => headSeq (t.chain id).store)
      (fun hI hC hstep => apartInv_step hI hC hstep) (fun hI _ => hI.movesPastNothing _) hapart
      ⟨hinv, hskips, fun _ => trivial⟩
  · rintro bs cs v rfl hv
    obtain ⟨u, hu, hrest⟩ := Machine.run_append.mp hrun
    obtain rfl : v = u := Option.some.inj (hv.symm.trans hu)
    have hstart : (exportStart ι t sink now appended).shared.tables.target = some sink := rfl
    exact (cursorsFrom_run (cursorsFrom_run hstart hv).1 hrest).2

end Runs

def noTables : SinkTables := ⟨none, [], fun _ => ⟨ChainStore.empty, none, none⟩⟩

def sampleExport : Pool Unit ExportWorld SinkPass :=
  exportStart Unit noTables "https://siem.example/audit" 1700000000000000000 fun _ => []

def shippedInTurn : List (Pick Unit SinkDraw ChainEvent) :=
  [.env (.record none [sampleEvent 1]), .call () (.done 1), .call () (.done 2), .call () (.done 3),
    .call () (.done 4), .env (.record none [sampleEvent 2]), .call () (.done 5)]

/-- The first row is delivered, the second one waits for the next pass. -/
theorem export_skips_nothing_in_turn :
    ∃ w, (exportCalls samplePrimitives "https://siem.example/audit" Unit).machine.run sampleExport
        shippedInTurn = some w ∧
      (w.shared.tables.chain (chainId none)).cursor = 1 ∧ NothingSkipped (fun _ => 0) w.shared := by
  have hany : ((exportCalls samplePrimitives "https://siem.example/audit" Unit).machine.run
      sampleExport shippedInTurn).any
        (fun w => (w.shared.tables.chain (chainId none)).cursor = 1) = true := by decide +kernel
  obtain ⟨w, hrun, hcursor⟩ := Machine.exists_run_of_any hany
  have hhistory : ∀ id, History samplePrimitives id (noTables.chain id).store [] :=
    fun _ => ⟨HonestRows.nil, ⟨0, le_rfl, rfl⟩, rfl, fun _ he => absurd he (Option.not_mem_none _),
      fun _ he => absurd he (Option.not_mem_none _)⟩
  have hmeets : (exportCalls samplePrimitives "https://siem.example/audit" Unit).machine.Meets
      MovesPastNothingAt sampleExport shippedInTurn := by decide +kernel
  have hskips := (export_skips_nothing_iff noTables 1700000000000000000 (fun _ => []) hhistory
    shippedInTurn w hrun).1.mpr hmeets shippedInTurn [] w (List.append_nil _).symm hrun
  exact ⟨w, hrun, of_decide_eq_true hcursor, hskips⟩

def skippedRow : List (Pick Unit SinkDraw ChainEvent) :=
  [.env (.record none [sampleEvent 1]), .env (.purge (chainId none) 1), .call () (.done 1),
    .call () (.done 2), .env (.record none [sampleEvent 2]), .call () (.done 3)]

/-- **A row is skipped**: the one appended between the empty page and the head was neither delivered
nor removed, and the cursor is past it. -/
theorem export_skips_a_row :
    ∃ w, (exportCalls samplePrimitives "https://siem.example/audit" Unit).machine.run sampleExport
        skippedRow = some w ∧ ¬ NothingSkipped (fun _ => 0) w.shared := by
  have hany : ((exportCalls samplePrimitives "https://siem.example/audit" Unit).machine.run
      sampleExport skippedRow).any (fun w =>
        (w.shared.ledger (chainId none)).appended.any fun r =>
          decide (0 < r.seq ∧ r.seq ≤ (w.shared.tables.chain (chainId none)).cursor ∧
            r ∉ (w.shared.ledger (chainId none)).delivered ∧
            r ∉ (w.shared.ledger (chainId none)).removed)) = true := by decide +kernel
  obtain ⟨w, hrun, hskipped⟩ := Machine.exists_run_of_any hany
  refine ⟨w, hrun, fun hskips => ?_⟩
  obtain ⟨r, hr, hmissed⟩ := List.any_eq_true.mp hskipped
  obtain ⟨hstart, hcursor, hdelivered, hremoved⟩ := of_decide_eq_true hmissed
  exact (hskips (chainId none) r hr hstart hcursor).elim hdelivered hremoved

end Ridm.Audit
