import Ridm.Audit.Model
import Ridm.Lib.Interleaving
import Ridm.Lib.KeyedQueues

/-!
# The audit writer

`spawn_writer` of `api/src/services/audit.rs`: events come off the bus in batches, each batch is
grouped by chain and each chain's share is appended in one transaction.  What cannot be appended
for now is parked and tried again, behind it queue the chain's later events, and past the limit the
oldest of the longest queue is dropped.

What the writer does not decide is given to each round by its `Surroundings`: which appends fail
and how, in which order the chains of a round end, and in which order the map of parked chains is
iterated.  `writer_keeps_order` holds for all of them: the rows of a chain are a subsequence of its
events in publication order, every event is in exactly one place, and the parked events are counted
and bounded.
-/

namespace Ridm.Audit

open KeyedQueues

/-- The key of a chain: its tenant, or none for the global chain. -/
abbrev ChainKey := Option Uuid128

/-! ## Parked events -/

/-- The events held back, and how many there may be. -/
structure Parked where
  chains : Queues ChainKey Event
  len : ℕ
  limit : ℕ

/-- `Parked::new`. -/
def Parked.new (limit : ℕ) : Parked := ⟨[], 0, limit⟩

/-- `Parked::holds`. -/
def Parked.holds (p : Parked) (chain : ChainKey) : Bool := decide (chain ∈ p.chains.map (·.1))

/-- The loop of `park`: past the limit, the oldest event of a longest queue is dropped.  It takes
as many turns as events are too many. -/
def Parked.dropLoop : ℕ → Parked → Parked × List Event
  | 0, p => (p, [])
  | fuel + 1, p =>
      if p.limit < p.len then
        match longest p.chains with
        | none => (p, [])
        | some k =>
            match popFront p.chains k with
            | some (e, chains) =>
                let rest := Parked.dropLoop fuel { p with chains := chains, len := p.len - 1 }
                (rest.1, e :: rest.2)
            | none => Parked.dropLoop fuel p
      else (p, [])

/-- `Parked::park`: the events go to the back of the chain's queue.  `arrange` is the order in
which the map is iterated once the chain is in it.  Answers the dropped events too. -/
def Parked.park (p : Parked) (arrange : Queues ChainKey Event → Queues ChainKey Event)
    (chain : ChainKey) (events : List Event) : Parked × List Event :=
  let pushed : Parked :=
    { p with chains := arrange (push p.chains chain events), len := p.len + events.length }
  let kept := Parked.dropLoop pushed.len pushed
  ({ kept.1 with chains := prune kept.1.chains }, kept.2)

/-- What `Parked` always satisfies: `len` counts the parked events, at most `limit` of them are
there, and no queue is empty. -/
structure Parked.Inv (p : Parked) : Prop where
  distinct : Distinct p.chains
  len_eq : p.len = (contents p.chains).length
  len_le : p.len ≤ p.limit
  nonempty : ∀ q ∈ p.chains, q.2 ≠ []

/-! ## One round -/

/-- How an append ends: it is in, it failed for a passing reason, or it fails again. -/
inductive Attempt
  | ok
  | transient
  | permanent

/-- What one chain's share of a round came to. -/
structure Outcome where
  chain : ChainKey
  list : List Event
  /-- `Err((n, _))`: the first `n` events are dealt with, the rest should be kept. -/
  err : Option ℕ

/-- What a round meets: the ends of its appends, whole or event by event, and the orders in which
chains end and maps are iterated. -/
structure Surroundings where
  whole : ChainKey → Attempt
  single : ChainKey → ℕ → Attempt
  finish : List Outcome → List Outcome
  finish_perm : ∀ os, (finish os).Perm os
  arrange : ChainKey → Queues ChainKey Event → Queues ChainKey Event
  arrange_perm : ∀ c l, (arrange c l).Perm l

/-- The writer: what is parked, the rows appended in order, and the events given up. -/
structure Writer where
  parked : Parked
  appended : List Event
  failed : List Event
  dropped : List Event

/-- The events `write_chain` appends one at a time, those it logs as failing, and where a passing
failure ends it. -/
def recordEach (single : ℕ → Attempt) : ℕ → List Event → List Event × List Event × Option ℕ
  | _, [] => ([], [], none)
  | i, e :: es =>
      match single i with
      | .ok =>
          let rest := recordEach single (i + 1) es
          (e :: rest.1, rest.2.1, rest.2.2)
      | .transient => ([], [], some i)
      | .permanent =>
          let rest := recordEach single (i + 1) es
          (rest.1, e :: rest.2.1, rest.2.2)

/-- `write_chain`: the events appended, those logged as failing, and the error. -/
def writeChain (whole : Attempt) (single : ℕ → Attempt) (list : List Event) :
    List Event × List Event × Option ℕ :=
  match whole with
  | .ok => (list, [], none)
  | .transient => ([], [], some 0)
  | .permanent =>
      if 1 < list.length then recordEach single 0 list
      else ([], list, none)

def groupByChain (events : List Event) : Queues ChainKey Event :=
  events.foldl (fun chains e => push chains e.tenantId [e]) []

/-- `parked.park(chain, events)`. -/
def Writer.park (w : Writer) (R : Surroundings) (chain : ChainKey) (events : List Event) : Writer :=
  let p := w.parked.park (R.arrange chain) chain events
  { w with parked := p.1, dropped := w.dropped ++ p.2 }

/-- The first loop of `write_chains`: the shares of parked chains are parked, the others are
ready. -/
def sortOut (R : Surroundings) : Writer → Queues ChainKey Event → Writer × Queues ChainKey Event
  | w, [] => (w, [])
  | w, (chain, list) :: chains =>
      if w.parked.holds chain then sortOut R (w.park R chain list) chains
      else
        let rest := sortOut R w chains
        (rest.1, (chain, list) :: rest.2)

/-- The appends of `write_chains`. -/
def writeReady (R : Surroundings) : Writer → Queues ChainKey Event → Writer × List Outcome
  | w, [] => (w, [])
  | w, (chain, list) :: ready =>
      let o := writeChain (R.whole chain) (R.single chain) list
      let written := { w with appended := w.appended ++ o.1, failed := w.failed ++ o.2.1 }
      let rest := writeReady R written ready
      (rest.1, ⟨chain, list, o.2.2⟩ :: rest.2)

/-- The last loop of `write_chains`: what is left of a chain that failed for a passing reason is
parked. -/
def parkFailed (R : Surroundings) : Writer → List Outcome → Writer
  | w, [] => w
  | w, o :: os =>
      match o.err with
      | none => parkFailed R w os
      | some n => parkFailed R (w.park R o.chain (o.list.drop n)) os

def writeChains (R : Surroundings) (w : Writer) (chains : Queues ChainKey Event) : Writer :=
  let sorted := sortOut R w chains
  let written := writeReady R sorted.1 sorted.2
  parkFailed R written.1 (R.finish written.2)

/-! ## The writer's loop -/

/-- The rounds of `spawn_writer`: a batch from the bus, or a retry of what is parked, its chains
drained in some order. -/
inductive WriterRound
  | batch (events : List Event) (R : Surroundings)
  | retry (drained : Queues ChainKey Event) (R : Surroundings)

/-- The writer, and the events it has received. -/
structure WriterWorld where
  writer : Writer
  received : List Event

/-- `spawn_writer` with room for `limit` parked events. -/
def writerStart (limit : ℕ) : WriterWorld := ⟨⟨Parked.new limit, [], [], []⟩, []⟩

/-- The loop of `spawn_writer`. -/
def writerMachine : Machine WriterWorld WriterRound where
  step w
    | .batch events R =>
        if events = [] then none
        else some ⟨writeChains R w.writer (groupByChain events), w.received ++ events⟩
    | .retry drained R =>
        if 0 < w.writer.parked.len ∧ drained.isPerm w.writer.parked.chains then
          some ⟨writeChains R { w.writer with parked := { w.writer.parked with chains := [], len := 0 } }
            drained, w.received⟩
        else none

/-! ## Parking -/

/-- A queue lost events at its front only. -/
def ShrunkFrom (q q' : List Event) : Prop := ∃ front, q = front ++ q'

lemma ShrunkFrom.refl (q : List Event) : ShrunkFrom q q := ⟨[], rfl⟩

lemma ShrunkFrom.trans {a b c : List Event} (h : ShrunkFrom a b) (h' : ShrunkFrom b c) :
    ShrunkFrom a c := by
  obtain ⟨x, rfl⟩ := h
  obtain ⟨y, rfl⟩ := h'
  exact ⟨x ++ y, (List.append_assoc _ _ _).symm⟩

lemma ShrunkFrom.sublist {a b : List Event} (h : ShrunkFrom a b) : b.Sublist a := by
  obtain ⟨x, rfl⟩ := h
  exact List.sublist_append_right x b

lemma ShrunkFrom.eq_nil {b : List Event} (h : ShrunkFrom [] b) : b = [] :=
  List.eq_nil_of_sublist_nil h.sublist

/-- Dropping stops at the limit, from the front. -/
lemma dropLoop_spec : ∀ (fuel : ℕ) (p : Parked), Distinct p.chains →
    p.len = (contents p.chains).length → p.len ≤ fuel + p.limit →
    Distinct (p.dropLoop fuel).1.chains ∧
      (p.dropLoop fuel).1.len = (contents (p.dropLoop fuel).1.chains).length ∧
      (p.dropLoop fuel).1.len ≤ p.limit ∧ (p.dropLoop fuel).1.limit = p.limit ∧
      (∀ c, ShrunkFrom (queue p.chains c) (queue (p.dropLoop fuel).1.chains c)) ∧
      (contents p.chains).Perm
        (contents (p.dropLoop fuel).1.chains ++ (p.dropLoop fuel).2) := by
  intro fuel
  induction fuel with
  | zero =>
      intro p hd hlen hle
      exact ⟨hd, hlen, by simpa [Parked.dropLoop] using hle, rfl, fun c => .refl _,
        by simp [Parked.dropLoop]⟩
  | succ fuel ih =>
      intro p hd hlen hle
      rw [Parked.dropLoop]
      by_cases hover : p.limit < p.len
      · rw [if_pos hover]
        have hne : contents p.chains ≠ [] := by
          intro hnil
          rw [hnil] at hlen
          simp only [List.length_nil] at hlen
          omega
        cases hlong : longest p.chains with
        | none =>
            rw [longest_eq_none hlong] at hne
            exact absurd rfl hne
        | some k =>
            cases hpop : popFront p.chains k with
            | none => exact absurd (popFront_eq_none hpop) (queue_longest_ne_nil hd hlong hne)
            | some popped =>
                obtain ⟨e, chains⟩ := popped
                obtain ⟨hkeys, hfront, hothers, hperm⟩ := popFront_spec hpop
                have hlen' := hperm.length_eq
                simp only [List.length_cons] at hlen'
                obtain ⟨h1, h2, h3, h4, h5, h6⟩ := ih { p with chains := chains, len := p.len - 1 }
                  (by rw [Distinct, hkeys]; exact hd) (by simp only; omega) (by simp only; omega)
                simp only [hpop]
                refine ⟨h1, h2, h3, h4, ?_, ?_⟩
                · intro c
                  refine ShrunkFrom.trans ?_ (h5 c)
                  by_cases hc : c = k
                  · subst hc
                    exact ⟨[e], hfront⟩
                  · exact ⟨[], (hothers c hc).symm⟩
                · exact (hperm.trans (h6.cons e)).trans List.perm_middle.symm
      · rw [if_neg hover]
        exact ⟨hd, hlen, by simp only; omega, rfl, fun c => .refl _, by simp⟩

/-- **What `park` does.**  The invariant holds afterwards, each queue has lost events at its front
only, and every event is parked or dropped. -/
theorem park_spec {p : Parked} (hp : p.Inv)
    {arrange : Queues ChainKey Event → Queues ChainKey Event} (harr : ∀ l, (arrange l).Perm l)
    (chain : ChainKey) (events : List Event) :
    (p.park arrange chain events).1.Inv ∧
      (∀ c, ShrunkFrom (queue p.chains c ++ if c = chain then events else [])
        (queue (p.park arrange chain events).1.chains c)) ∧
      (contents p.chains ++ events).Perm
        (contents (p.park arrange chain events).1.chains ++ (p.park arrange chain events).2) := by
  have hdpush := hp.distinct.push chain events
  have hcontents : (contents (arrange (push p.chains chain events))).Perm
      (contents p.chains ++ events) :=
    (contents_perm (harr _).symm).trans (contents_push p.chains chain events)
  have hdarr : Distinct (arrange (push p.chains chain events)) := by
    have hkeys : ((arrange (push p.chains chain events)).map (·.1)).Perm
        ((push p.chains chain events).map (·.1)) := (harr _).map _
    exact hkeys.nodup_iff.mpr hdpush
  have hlen : p.len + events.length =
      (contents (arrange (push p.chains chain events))).length := by
    rw [hcontents.length_eq, List.length_append, hp.len_eq]
  obtain ⟨h1, h2, h3, h4, h5, h6⟩ := dropLoop_spec (p.len + events.length)
    { p with chains := arrange (push p.chains chain events), len := p.len + events.length }
    hdarr hlen (by simp only; omega)
  refine ⟨⟨h1.prune, ?_, ?_, prune_ne_nil⟩, ?_, ?_⟩
  · show _ = (contents (prune _)).length
    rw [contents_prune]
    exact h2
  · show _ ≤ (Parked.dropLoop _ _).1.limit
    rw [h4]
    exact h3
  · intro c
    show ShrunkFrom _ (queue (prune _) c)
    rw [queue_prune h1, ← queue_push, ← queue_perm hdpush (harr _).symm]
    exact h5 c
  · show (contents p.chains ++ events).Perm (contents (prune _) ++ _)
    rw [contents_prune]
    exact hcontents.symm.trans h6

/-! ## Where the events are -/

def ofChain (c : ChainKey) (events : List Event) : List Event :=
  events.filter fun e => e.tenantId = c

/-- The flow of events through the writer.  `pend` are the events of each chain that the current
round has in hand, `inHand` all of them.  Along each chain, what is appended, what is parked and
what is in hand follow each other in the order of publication; and each event is in one place. -/
structure Flow (w : Writer) (received : List Event) (pend : ChainKey → List Event)
    (inHand : List Event) : Prop where
  parked : w.parked.Inv
  order : ∀ c, (ofChain c w.appended ++ (queue w.parked.chains c ++ pend c)).Sublist
    (ofChain c received)
  places : received.Perm
    (w.appended ++ (contents w.parked.chains ++ (inHand ++ (w.failed ++ w.dropped))))

namespace Flow

variable {w : Writer} {received inHand rest : List Event} {pend : ChainKey → List Event}

lemma mem_pend (h : Flow w received pend inHand) {c : ChainKey} {e : Event} (he : e ∈ pend c) :
    e.tenantId = c := by
  have hmem : e ∈ ofChain c received := (h.order c).subset (by simp [he])
  simpa using (List.mem_filter.mp hmem).2

lemma park (h : Flow w received pend inHand) (R : Surroundings) {c : ChainKey}
    (hall : inHand.Perm (pend c ++ rest)) :
    Flow (w.park R c (pend c)) received (Function.update pend c []) rest := by
  obtain ⟨hinv, hqueue, hperm⟩ := park_spec h.parked (R.arrange_perm c) c (pend c)
  refine ⟨hinv, ?_, ?_⟩
  · intro c'
    refine List.Sublist.trans ?_ (h.order c')
    refine List.Sublist.append_left ?_ _
    have hsub := (hqueue c').sublist
    by_cases hc : c' = c
    · subst hc
      rw [if_pos rfl] at hsub
      rw [Function.update_self, List.append_nil]
      exact hsub
    · rw [if_neg hc, List.append_nil] at hsub
      rw [Function.update_of_ne hc]
      exact hsub.append_right _
  · rw [List.perm_iff_count]
    intro e
    have h1 := (List.perm_iff_count.mp h.places) e
    have h2 := (List.perm_iff_count.mp hall) e
    have h3 := (List.perm_iff_count.mp hperm) e
    simp only [List.count_append, Writer.park] at h1 h2 h3 ⊢
    omega

end Flow

/-- What is left of a chain's share. -/
def leftOver (list : List Event) : Option ℕ → List Event
  | none => []
  | some n => list.drop n

lemma recordEach_spec (single : ℕ → Attempt) (list : List Event) : ∀ (i : ℕ) (before : List Event),
    before.length = i →
    ((recordEach single i list).1 ++
        leftOver (before ++ list) (recordEach single i list).2.2).Sublist list ∧
      list.Perm ((recordEach single i list).1 ++ ((recordEach single i list).2.1 ++
        leftOver (before ++ list) (recordEach single i list).2.2)) := by
  induction list with
  | nil =>
      intro i before _
      simp [recordEach, leftOver]
  | cons e es ih =>
      intro i before hi
      have hnext : before ++ e :: es = (before ++ [e]) ++ es := by simp
      obtain ⟨hsub, hperm⟩ := ih (i + 1) (before ++ [e]) (by simp [hi])
      rw [recordEach]
      cases hs : single i with
      | ok =>
          simp only [hnext]
          exact ⟨hsub.cons_cons e, hperm.cons e⟩
      | transient =>
          have hdrop : leftOver (before ++ e :: es) (some i) = e :: es := by
            rw [leftOver, List.drop_left' hi]
          simp only [hdrop, List.nil_append]
          exact ⟨.refl _, .refl _⟩
      | permanent =>
          simp only [hnext]
          exact ⟨hsub.cons e, (hperm.cons e).trans List.perm_middle.symm⟩

/-- What `write_chain` does with a chain's share: what it appends and what it leaves are in order,
and each event is appended, logged or left. -/
lemma writeChain_spec (whole : Attempt) (single : ℕ → Attempt) (list : List Event) :
    ((writeChain whole single list).1 ++
        leftOver list (writeChain whole single list).2.2).Sublist list ∧
      list.Perm ((writeChain whole single list).1 ++ ((writeChain whole single list).2.1 ++
        leftOver list (writeChain whole single list).2.2)) := by
  cases whole with
  | ok => simp [writeChain, leftOver]
  | transient => simp [writeChain, leftOver]
  | permanent =>
      rw [writeChain]
      split_ifs
      · exact recordEach_spec single list 0 [] rfl
      · simp [leftOver]

namespace Flow

variable {w : Writer} {received inHand rest : List Event} {pend : ChainKey → List Event}

lemma write (h : Flow w received pend inHand) (R : Surroundings) {c : ChainKey}
    (hidle : queue w.parked.chains c = []) (hall : inHand.Perm (pend c ++ rest)) :
    Flow { w with
        appended := w.appended ++ (writeChain (R.whole c) (R.single c) (pend c)).1
        failed := w.failed ++ (writeChain (R.whole c) (R.single c) (pend c)).2.1 }
      received
      (Function.update pend c
        (leftOver (pend c) (writeChain (R.whole c) (R.single c) (pend c)).2.2))
      (leftOver (pend c) (writeChain (R.whole c) (R.single c) (pend c)).2.2 ++ rest) := by
  obtain ⟨hsub, hperm⟩ := writeChain_spec (R.whole c) (R.single c) (pend c)
  have hof : ∀ e ∈ (writeChain (R.whole c) (R.single c) (pend c)).1, e.tenantId = c := by
    intro e he
    exact h.mem_pend (hsub.subset (List.mem_append_left _ he))
  refine ⟨h.parked, ?_, ?_⟩
  · intro c'
    refine List.Sublist.trans ?_ (h.order c')
    show (ofChain c' (w.appended ++ _) ++ (queue w.parked.chains c' ++ _)).Sublist _
    by_cases hc : c' = c
    · subst hc
      have hfilter : ofChain c' (writeChain (R.whole c') (R.single c') (pend c')).1 =
          (writeChain (R.whole c') (R.single c') (pend c')).1 :=
        List.filter_eq_self.mpr (fun e he => by simpa using hof e he)
      rw [hidle, List.nil_append, List.nil_append, Function.update_self, ofChain,
        List.filter_append, List.append_assoc]
      refine List.Sublist.append_left ?_ _
      rw [← ofChain, hfilter]
      exact hsub
    · have hnone : ofChain c' (writeChain (R.whole c) (R.single c) (pend c)).1 = [] := by
        rw [ofChain, List.filter_eq_nil_iff]
        intro e he
        simpa [hof e he] using Ne.symm hc
      rw [Function.update_of_ne hc, ofChain, List.filter_append, ← ofChain, ← ofChain, hnone,
        List.append_nil]
  · rw [List.perm_iff_count]
    intro e
    have h1 := (List.perm_iff_count.mp h.places) e
    have h2 := (List.perm_iff_count.mp hall) e
    have h3 := (List.perm_iff_count.mp hperm) e
    simp only [List.count_append] at h1 h2 h3 ⊢
    omega

lemma of_eq (h : Flow w received pend inHand) {pend' : ChainKey → List Event}
    {inHand' : List Event} (hpend : ∀ c, pend' c = pend c) (hall : inHand'.Perm inHand) :
    Flow w received pend' inHand' := by
  rw [← funext hpend] at h
  refine ⟨h.parked, h.order, h.places.trans ?_⟩
  exact (((hall.symm.append_right _).append_left _).append_left _)

end Flow

lemma park_idle {w : Writer} (hp : w.parked.Inv) (R : Surroundings) {c c' : ChainKey}
    (events : List Event) (hc : c' ≠ c) (hidle : queue w.parked.chains c' = []) :
    queue (w.park R c events).parked.chains c' = [] := by
  obtain ⟨-, hqueue, -⟩ := park_spec hp (R.arrange_perm c) c events
  have hshrunk := hqueue c'
  rw [if_neg hc, List.append_nil, hidle] at hshrunk
  exact hshrunk.eq_nil

lemma Flow.park_share {w : Writer} {received : List Event} {before after : Queues ChainKey Event}
    {chain : ChainKey} {list : List Event} (R : Surroundings)
    (hd : Distinct (before ++ (chain, list) :: after))
    (h : Flow w received (queue (before ++ (chain, list) :: after))
      (contents (before ++ (chain, list) :: after))) :
    Flow (w.park R chain list) received (queue (before ++ after)) (contents (before ++ after)) := by
  have hself : queue (before ++ (chain, list) :: after) chain = list := by
    rw [queue_middle hd, if_pos rfl]
  have hall : (contents (before ++ (chain, list) :: after)).Perm
      (queue (before ++ (chain, list) :: after) chain ++ contents (before ++ after)) := by
    rw [hself]
    exact contents_middle before after (chain, list)
  have hparked := h.park R hall
  rw [hself] at hparked
  refine hparked.of_eq ?_ (.refl _)
  intro c
  by_cases hc : c = chain
  · subst hc
    rw [Function.update_self, queue_of_notMem hd.of_middle.2]
  · rw [Function.update_of_ne hc, queue_middle hd, if_neg (Ne.symm hc)]

lemma sortOut_flow (R : Surroundings) (received : List Event) :
    ∀ (chains ready : Queues ChainKey Event) (w : Writer), Distinct (ready ++ chains) →
      (∀ p ∈ ready, queue w.parked.chains p.1 = []) →
      Flow w received (queue (ready ++ chains)) (contents (ready ++ chains)) →
      Distinct (ready ++ (sortOut R w chains).2) ∧
        (∀ p ∈ ready ++ (sortOut R w chains).2,
          queue (sortOut R w chains).1.parked.chains p.1 = []) ∧
        Flow (sortOut R w chains).1 received (queue (ready ++ (sortOut R w chains).2))
          (contents (ready ++ (sortOut R w chains).2)) := by
  intro chains
  induction chains with
  | nil =>
      intro ready w hd hidle hflow
      rw [sortOut]
      exact ⟨hd, by simpa using hidle, hflow⟩
  | cons p chains ih =>
      obtain ⟨chain, list⟩ := p
      intro ready w hd hidle hflow
      rw [sortOut]
      split_ifs with hholds
      · refine ih ready _ hd.of_middle.1 ?_ (hflow.park_share R hd)
        intro p hp
        refine park_idle hflow.parked R list ?_ (hidle p hp)
        rintro rfl
        exact hd.of_middle.2 (List.mem_map.mpr ⟨p, List.mem_append_left _ hp, rfl⟩)
      · have hassoc : ∀ m : Queues ChainKey Event,
            ready ++ (chain, list) :: m = (ready ++ [(chain, list)]) ++ m := by simp
        rw [hassoc] at hd hflow ⊢
        refine ih (ready ++ [(chain, list)]) w hd ?_ hflow
        intro p hp
        rcases List.mem_append.mp hp with hp | hp
        · exact hidle p hp
        · rw [List.mem_singleton] at hp
          subst hp
          exact queue_of_notMem (by simpa [Parked.holds] using hholds)

/-- The shares that a round still has in hand once its appends ended. -/
def leftOvers (outcomes : List Outcome) : Queues ChainKey Event :=
  outcomes.map fun o => (o.chain, leftOver o.list o.err)

lemma writeReady_flow (R : Surroundings) (received : List Event) :
    ∀ (ready done : Queues ChainKey Event) (w : Writer), Distinct (done ++ ready) →
      (∀ p ∈ ready, queue w.parked.chains p.1 = []) →
      Flow w received (queue (done ++ ready)) (contents (done ++ ready)) →
      Distinct (done ++ leftOvers (writeReady R w ready).2) ∧
        Flow (writeReady R w ready).1 received
          (queue (done ++ leftOvers (writeReady R w ready).2))
          (contents (done ++ leftOvers (writeReady R w ready).2)) := by
  intro ready
  induction ready with
  | nil =>
      intro done w hd _ hflow
      exact ⟨hd, hflow⟩
  | cons p ready ih =>
      obtain ⟨chain, list⟩ := p
      intro done w hd hidle hflow
      have hself : queue (done ++ (chain, list) :: ready) chain = list := by
        rw [queue_middle hd, if_pos rfl]
      have hall : (contents (done ++ (chain, list) :: ready)).Perm
          (queue (done ++ (chain, list) :: ready) chain ++ contents (done ++ ready)) := by
        rw [hself]
        exact contents_middle done ready (chain, list)
      have hwritten := hflow.write R (hidle _ List.mem_cons_self) hall
      rw [hself] at hwritten
      rw [writeReady]
      generalize writeChain (R.whole chain) (R.single chain) list = o at hwritten ⊢
      have hassoc : ∀ m : Queues ChainKey Event, done ++ (chain, leftOver list o.2.2) :: m =
          (done ++ [(chain, leftOver list o.2.2)]) ++ m := by simp
      have hd' : Distinct (done ++ (chain, leftOver list o.2.2) :: ready) := by
        simpa [Distinct] using hd
      show Distinct (done ++ (chain, leftOver list o.2.2) :: leftOvers _) ∧
        Flow _ received (queue (done ++ (chain, leftOver list o.2.2) :: leftOvers _))
          (contents (done ++ (chain, leftOver list o.2.2) :: leftOvers _))
      rw [hassoc]
      refine ih (done ++ [(chain, leftOver list o.2.2)]) _ (hassoc ready ▸ hd') ?_ ?_
      · intro p hp
        exact hidle p (List.mem_cons_of_mem _ hp)
      · rw [← hassoc]
        refine hwritten.of_eq ?_ (contents_middle _ _ _)
        intro c
        rw [queue_middle hd']
        by_cases hc : c = chain
        · subst hc
          rw [Function.update_self, if_pos rfl]
        · rw [Function.update_of_ne hc, queue_middle hd, if_neg (Ne.symm hc), if_neg (Ne.symm hc)]

lemma parkFailed_flow (R : Surroundings) (received : List Event) :
    ∀ (outcomes : List Outcome) (w : Writer), Distinct (leftOvers outcomes) →
      Flow w received (queue (leftOvers outcomes)) (contents (leftOvers outcomes)) →
      Flow (parkFailed R w outcomes) received (fun _ => []) [] := by
  intro outcomes
  induction outcomes with
  | nil =>
      intro w _ hflow
      exact hflow
  | cons o outcomes ih =>
      intro w hd hflow
      have hd' : Distinct ([] ++ (o.chain, leftOver o.list o.err) :: leftOvers outcomes) := hd
      obtain ⟨hrest, hnew⟩ := hd'.of_middle
      rw [parkFailed]
      cases herr : o.err with
      | none =>
          refine ih w hrest (hflow.of_eq ?_ ?_)
          · intro c
            show _ = queue ((o.chain, leftOver o.list o.err) :: leftOvers outcomes) c
            rw [queue_cons, herr, leftOver]
            split_ifs with hc
            · exact queue_of_notMem (hc ▸ hnew)
            · rfl
          · show List.Perm _ (contents ((o.chain, leftOver o.list o.err) :: leftOvers outcomes))
            rw [contents_cons, herr, leftOver]
            exact .refl _
      | some n =>
          refine ih _ hrest ?_
          have hparked := Flow.park_share R hd' hflow
          rw [herr] at hparked
          exact hparked

lemma writeChains_flow {R : Surroundings} {w : Writer} {received : List Event}
    {chains : Queues ChainKey Event} (hd : Distinct chains)
    (h : Flow w received (queue chains) (contents chains)) :
    Flow (writeChains R w chains) received (fun _ => []) [] := by
  obtain ⟨hd1, hidle, hflow1⟩ := sortOut_flow R received chains [] w hd
    (fun _ hp => absurd hp List.not_mem_nil) h
  obtain ⟨hd2, hflow2⟩ := writeReady_flow R received _ [] _ hd1 hidle hflow1
  rw [writeChains]
  -- the chains end in any order, which changes neither a share nor the events in hand
  have hperm : (leftOvers (writeReady R (sortOut R w chains).1 (sortOut R w chains).2).2).Perm
      (leftOvers (R.finish (writeReady R (sortOut R w chains).1 (sortOut R w chains).2).2)) :=
    ((R.finish_perm _).map _).symm
  refine parkFailed_flow R received _ _ ?_ (hflow2.of_eq ?_ (contents_perm hperm))
  · exact (hperm.map _).nodup_iff.mp hd2
  · intro c
    exact queue_perm hd2 hperm c

/-! ## Grouping -/

lemma ofChain_append (c : ChainKey) (a b : List Event) :
    ofChain c (a ++ b) = ofChain c a ++ ofChain c b := List.filter_append ..

lemma groupByChain_spec (events : List Event) :
    Distinct (groupByChain events) ∧ (∀ c, queue (groupByChain events) c = ofChain c events) ∧
      (contents (groupByChain events)).Perm events := by
  induction events using List.reverseRecOn with
  | nil => exact ⟨List.nodup_nil, fun c => rfl, .refl _⟩
  | append_singleton events e ih =>
      obtain ⟨hd, hqueue, hcontents⟩ := ih
      have hstep : groupByChain (events ++ [e]) = push (groupByChain events) e.tenantId [e] := by
        simp [groupByChain, List.foldl_append]
      rw [hstep]
      refine ⟨hd.push _ _, ?_, ?_⟩
      · intro c
        rw [queue_push, hqueue, ofChain_append]
        by_cases hc : c = e.tenantId
        · simp [ofChain, hc]
        · simp [ofChain, hc, Ne.symm hc]
      · exact (contents_push _ _ _).trans (hcontents.append_right _)

/-! ## Whole runs -/

/-- What holds between two rounds: nothing is in hand. -/
def WriterWorld.Sound (w : WriterWorld) : Prop := Flow w.writer w.received (fun _ => []) []

lemma writerStart_sound (limit : ℕ) : (writerStart limit).Sound := by
  refine ⟨⟨List.nodup_nil, rfl, Nat.zero_le _, ?_⟩, ?_, .refl _⟩
  · intro q hq
    exact absurd hq List.not_mem_nil
  · intro c
    exact .refl _

lemma batch_flow {w : WriterWorld} (h : w.Sound) (events : List Event) :
    Flow w.writer (w.received ++ events) (queue (groupByChain events))
      (contents (groupByChain events)) := by
  obtain ⟨-, hqueue, hcontents⟩ := groupByChain_spec events
  refine ⟨h.parked, ?_, ?_⟩
  · intro c
    have horder := h.order c
    rw [List.append_nil] at horder
    rw [hqueue, ofChain_append, ← List.append_assoc]
    exact horder.append_right _
  · rw [List.perm_iff_count]
    intro e
    have h1 := (List.perm_iff_count.mp h.places) e
    have h2 := (List.perm_iff_count.mp hcontents) e
    simp only [List.count_append, List.count_nil] at h1 h2 ⊢
    omega

lemma retry_flow {w : WriterWorld} (h : w.Sound) {drained : Queues ChainKey Event}
    (hperm : drained.Perm w.writer.parked.chains) :
    Flow { w.writer with parked := { w.writer.parked with chains := [], len := 0 } } w.received
      (queue drained) (contents drained) := by
  refine ⟨⟨List.nodup_nil, rfl, Nat.zero_le _, ?_⟩, ?_, ?_⟩
  · intro q hq
    exact absurd hq List.not_mem_nil
  · intro c
    rw [queue_perm h.parked.distinct hperm.symm c]
    have horder := h.order c
    rw [List.append_nil] at horder
    exact horder
  · rw [List.perm_iff_count]
    intro e
    have h1 := (List.perm_iff_count.mp h.places) e
    have h2 := (List.perm_iff_count.mp (contents_perm hperm)) e
    simp only [List.count_append, List.count_nil, contents_nil] at h1 h2 ⊢
    omega

lemma writerMachine_step {w w' : WriterWorld} {r : WriterRound} (h : w.Sound)
    (hs : writerMachine.step w r = some w') : w'.Sound := by
  cases r with
  | batch events R =>
      simp only [writerMachine] at hs
      split_ifs at hs with hnil
      cases hs
      exact writeChains_flow (groupByChain_spec events).1 (batch_flow h events)
  | retry drained R =>
      simp only [writerMachine] at hs
      split_ifs at hs with hdrain
      cases hs
      have hperm := List.isPerm_iff.mp hdrain.2
      have hd : Distinct drained := (hperm.map _).nodup_iff.mpr h.parked.distinct
      exact writeChains_flow hd (retry_flow h hperm)

/-- **The audit writer neither reorders nor duplicates.**  Whatever is published, however it is cut
into batches and whichever appends fail: the rows of each chain are a subsequence of its events in
the order of publication, each event is appended, parked, logged as failing or dropped, and nothing
twice; and `Parked` counts what it holds, within its limit and without empty queues. -/
theorem writer_keeps_order (limit : ℕ) (rounds : List WriterRound) (w : WriterWorld)
    (hrun : writerMachine.run (writerStart limit) rounds = some w) :
    (∀ c, (ofChain c w.writer.appended).Sublist (ofChain c w.received)) ∧
      w.received.Perm (w.writer.appended ++ (contents w.writer.parked.chains ++
        (w.writer.failed ++ w.writer.dropped))) ∧
      w.writer.parked.Inv := by
  have hsound : w.Sound := by
    refine Machine.run_inv (C := fun _ _ => True) ?_ (Machine.meets_of_forall ?_ _ _) hrun
      (writerStart_sound limit)
    · intro s r s' hs _ hstep
      exact writerMachine_step hs hstep
    · intro _ _
      trivial
  refine ⟨?_, ?_, hsound.parked⟩
  · intro c
    exact (List.sublist_append_left _ _).trans (hsound.order c)
  · simpa using hsound.places

def Surroundings.uniform (a : Attempt) : Surroundings where
  whole _ := a
  single _ _ := a
  finish os := os
  finish_perm _ := .refl _
  arrange _ l := l
  arrange_perm _ _ := .refl _

def sampleRounds : List WriterRound :=
  [.batch [sampleEvent 1, sampleEvent 2] (.uniform .transient),
    .retry [(none, [sampleEvent 2])] (.uniform .ok)]

/-- With room for one parked event, the older of two is dropped, and the other appended once the
chain is back. -/
theorem writer_keeps_order_retry :
    ∃ w, writerMachine.run (writerStart 1) sampleRounds = some w ∧
      w.writer.dropped = [sampleEvent 1] ∧ w.writer.appended = [sampleEvent 2] ∧
      (∀ c, (ofChain c w.writer.appended).Sublist (ofChain c w.received)) ∧
      w.received.Perm (w.writer.appended ++ (contents w.writer.parked.chains ++
        (w.writer.failed ++ w.writer.dropped))) ∧
      w.writer.parked.Inv :=
  ⟨_, rfl, rfl, rfl, writer_keeps_order 1 sampleRounds _ rfl⟩

end Ridm.Audit
