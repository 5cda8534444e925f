import Ridm.Ciba.HandOver

/-!
# A decision and the polls beside it

`decide` holds a lock on the request's row that `poll` never asks for.  A poll that read the
record while it was pending may write it back after `decide` wrote the decision: the row is then
decided for good, and the record waits for a decision that nobody can make any more.
`decision_undone` is such a schedule.

As long as no poll writes a pending record over a decision (`PendingFound`), record and row agree,
and whoever asks afterwards is told the decision: `decision_survives`.  The invariant, `Inv`, says
what every call may hold at each stage of the one `decide`: until it has written the record, every
copy of the record anywhere is pending; afterwards the stored one carries the decision.
-/

namespace Ridm.Ciba

/-- The status the answer `v` gives a record. -/
def verdict : Option Approval → Status
  | some a => .approved a
  | none => .denied

/-- The call has written its decision to the record. -/
def Pc.hasDecided : Pc → Bool
  | .committing .. | .returned (.decide (.ok _)) => true
  | _ => false

/-- The stored record waits for a decision. -/
def Store.isPending (g : Store) : Bool := g.request.get.any fun r => r.status.isPending

/-- The row says what the answer `v` says. -/
def Row.Agrees (row : Row) : Option Approval → Prop
  | some _ => row.status = .approved ∨ row.status = .consumed
  | none => row.status = .denied

/-- The client has been handed the decision `v`, or the poll that took the record is about to. -/
def Pc.HandedOver (v : Option Approval) : Pc → Prop
  | .consuming _ a | .returned (.poll (some (.approved _ a))) => v = some a
  | .returned (.poll (some .denied)) => v = none
  | _ => False

/-- The answer tells the client the decision `v`. -/
def Poll.Tells (v : Option Approval) : Poll → Prop
  | .approved _ a => v = some a
  | .denied => v = none
  | _ => False

section

variable {ι : Type}

/-- **No pending record over a decision.**  Whenever a call writes back a pending record, the
stored one is still pending, or nothing has been decided yet. -/
def PendingFound (w : Pool ι Store Pc) : Pick ι Choice Env → Prop
  | .call i _ => ((w.calls i).writes.any fun r => r.status.isPending) = true →
      w.shared.isPending = true ∨ ∀ j, (w.calls j).hasDecided = false
  | .env _ => True

instance [Fintype ι] (w : Pool ι Store Pc) : ∀ a, Decidable (PendingFound w a)
  | .call _ _ => inferInstanceAs (Decidable (_ → _))
  | .env _ => .isTrue trivial

/-- **Nothing has happened yet** to the request `r₀`: it is stored until it expires, pending like
its row, call `d` is a `decide` and every other call a `poll`. -/
structure Fresh (r₀ : CibaRecord) (d : ι) (v : Option Approval) (w : Pool ι Store Pc) : Prop where
  stored : ∃ t, w.shared.request = some ⟨r₀, some t⟩ ∧ r₀.expiresAt ≤ t
  pending : r₀.status = .pending
  row : w.shared.row.status = .pending
  decide : ∃ userId, w.calls d = .idle (.decide userId v)
  poll : ∀ i, i ≠ d → ∃ clientId, w.calls i = .idle (.poll clientId)

/-! ## The invariant -/

/-- A version of the request `r₀`. -/
def CibaRecord.SameRequest (r r₀ : CibaRecord) : Prop :=
  r.clientId = r₀.clientId ∧ r.expiresAt = r₀.expiresAt

/-- What a poll may hold, before (`dec = false`) and after the decision was written. -/
def PollOk (r₀ : CibaRecord) (v : Option Approval) (dec : Bool) (now : Instant) : Pc → Prop
  | .idle (.poll _) => True
  | .polled r => r.SameRequest r₀ ∧ (r.status = .pending ∨ dec = true ∧ r.status = verdict v)
  | .polling (.keep r _) => r.SameRequest r₀ ∧ r.status = .pending
  | .polling (.take _ a) | .consuming _ a | .returned (.poll (some (.approved _ a))) =>
      dec = true ∧ v = some a
  | .polling .refuse | .returned (.poll (some .denied)) => dec = true ∧ v = none
  | .polling .expire | .returned (.poll (some .expired)) => r₀.expiresAt ≤ now
  | .returned (.poll _) => True
  | _ => False

/-- What the `decide` with the answer `v` may hold. -/
def DecideOk (r₀ : CibaRecord) (v : Option Approval) : Pc → Prop
  | .idle (.decide _ v') | .begun _ v' _ | .rowLocked _ v' => v' = v
  | .loaded r v' | .deciding r v' | .committing r v' => v' = v ∧ r.SameRequest r₀
  | .returned (.decide _) | .rolledBack => True
  | _ => False

/-- The `decide` has neither been refused nor rolled back. -/
def Pc.isLive : Pc → Bool
  | .returned (.decide (.error _)) | .rolledBack => false
  | _ => true

/-- The row while the `decide` stands at `l`: pending until it returns. -/
def RowOk (v : Option Approval) (row : Row) : Pc → Prop
  | .returned _ => row.Agrees v
  | _ => row.status = .pending

/-- **The invariant**, as long as the `decide` is live. -/
structure Inv (r₀ : CibaRecord) (d : ι) (v : Option Approval) (w : Pool ι Store Pc) : Prop where
  decider : DecideOk r₀ v (w.calls d)
  polls : ∀ i, i ≠ d → PollOk r₀ v (w.calls d).hasDecided w.shared.now (w.calls i)
  stored : ∀ e, w.shared.request = some e → e.value.SameRequest r₀ ∧
    e.value.status = (if (w.calls d).hasDecided then verdict v else .pending) ∧
    ∀ t, e.deadline = some t → r₀.expiresAt ≤ t
  missing : w.shared.request = none →
    r₀.expiresAt ≤ w.shared.now ∨ ∃ p, (w.calls p).HandedOver v
  row : RowOk v w.shared.row (w.calls d)

variable {r₀ r : CibaRecord} {d i : ι} {v : Option Approval} {dec : Bool} {now : Instant}
  {g g' : Store} {l l' : Pc} {w w₁ w₂ : Pool ι Store Pc} {as bs : List (Pick ι Choice Env)}

/-! ## What the code does to the pieces -/

@[simp] lemma status_decided (r : CibaRecord) (v : Option Approval) :
    (r.decided v).status = verdict v := by
  cases v <;> rfl

lemma sameRequest_decided (h : r.SameRequest r₀) (v : Option Approval) :
    (r.decided v).SameRequest r₀ := by
  cases v <;> exact h

lemma isPending_verdict (v : Option Approval) : (verdict v).isPending = false := by
  cases v <;> rfl

variable {k : Choice} {row : Row} {q : ι}

lemma agrees_decide (h : row.status = .pending) (v : Option Approval) :
    (row.decide v).Agrees v := by
  cases v <;> simp [Row.decide, Row.Agrees, h]

lemma rowOk_consume (h : RowOk v row l) : RowOk v row.consume l := by
  cases l with
  | returned a =>
      cases v with
      | none =>
          simp only [RowOk, Row.Agrees] at h
          simp [RowOk, Row.Agrees, Row.consume, h]
      | some a =>
          rcases h with h | h <;> simp [RowOk, Row.Agrees, Row.consume, h]
  | _ =>
      simp only [RowOk] at h
      simp [RowOk, Row.consume, h]

lemma pollDecide_ok (h : PollOk r₀ v dec now (.polled r)) :
    PollOk r₀ v dec now (.polling (pollDecide r now)) := by
  obtain ⟨hsame, hstatus⟩ := h
  by_cases hexp : r.isExpired now = true
  · rw [pollDecide, if_pos hexp]
    simp only [CibaRecord.isExpired, decide_eq_true_eq] at hexp
    simpa [PollOk, ← hsame.2] using hexp
  · rw [pollDecide, if_neg hexp]
    cases hs : r.status with
    | pending => exact ⟨hsame, rfl⟩
    | approved a =>
        cases v <;> simp_all [PollOk, verdict]
    | denied =>
        cases v <;> simp_all [PollOk, verdict]

lemma DecideOk.not_handedOver (h : DecideOk r₀ v l) : ¬ l.HandedOver v := by
  intro hh
  cases l with
  | returned a =>
      cases a with
      | poll p => exact h
      | decide x => exact hh
  | consuming r a => exact h
  | _ => exact hh

lemma PollOk.mono (h : PollOk r₀ v dec now l) {now' : Instant} {dec' : Bool} (hnow : now ≤ now')
    (hdec : dec = true → dec' = true) : PollOk r₀ v dec' now' l := by
  cases l with
  | idle c => cases c <;> exact h
  | polled r => exact ⟨h.1, h.2.imp_right fun ⟨hd, hs⟩ => ⟨hdec hd, hs⟩⟩
  | polling c =>
      cases c with
      | expire => exact le_trans h hnow
      | refuse => exact ⟨hdec h.1, h.2⟩
      | keep r soon => exact h
      | take r a => exact ⟨hdec h.1, h.2⟩
  | consuming r a => exact ⟨hdec h.1, h.2⟩
  | returned a =>
      cases a with
      | decide x => exact h
      | poll p =>
          cases p with
          | none => trivial
          | some p =>
              cases p with
              | approved r a => exact ⟨hdec h.1, h.2⟩
              | denied => exact ⟨hdec h.1, h.2⟩
              | expired => exact le_trans h hnow
              | pending => trivial
              | slowDown => trivial
  | _ => exact h

/-! ## The invariant along a schedule -/

lemma Inv.not_pending (h : Inv r₀ d v w) (hdec : (w.calls d).hasDecided = true) :
    w.shared.isPending = false := by
  cases hreq : w.shared.request with
  | none => simp [Store.isPending, hreq]
  | some e =>
      have hstatus := (h.stored e hreq).2.1
      rw [if_pos hdec] at hstatus
      simp [Store.isPending, hreq, hstatus, isPending_verdict]

/-- **One step of the surroundings.** -/
lemma Inv.env_step {e : Env} (h : Inv r₀ d v w) (hstep : env w.shared e = some g') :
    Inv r₀ d v ⟨g', w.calls⟩ := by
  cases e with
  | tick n =>
      simp only [env, Option.some.injEq] at hstep
      subst hstep
      have hnow : w.shared.now ≤ w.shared.now + n :=
        Int.le_add_of_nonneg_right (Int.natCast_nonneg n)
      exact {
        decider := h.decider
        polls := fun j hj => (h.polls j hj).mono hnow id
        stored := h.stored
        missing := fun hnone => (h.missing hnone).imp_left fun hexp => le_trans hexp hnow
        row := h.row }
  | expire =>
      simp only [env, Option.map_eq_some_iff] at hstep
      obtain ⟨s, hexp, rfl⟩ := hstep
      obtain ⟨hlapsed, rfl⟩ := Slot.expire_eq_some hexp
      refine { decider := h.decider, polls := h.polls, stored := by simp, missing := ?_,
               row := h.row }
      -- the key outlives the request
      intro _
      cases hreq : w.shared.request with
      | none => simp [hreq, Slot.lapsed] at hlapsed
      | some e =>
          cases hdl : e.deadline with
          | none => simp [hreq, Slot.lapsed, hdl] at hlapsed
          | some t =>
              have ht : t ≤ w.shared.now := by simpa [hreq, Slot.lapsed, hdl] using hlapsed
              exact Or.inl (le_trans ((h.stored e hreq).2.2 t hdl) ht)

lemma Fresh.inv (h : Fresh r₀ d v w) : Inv r₀ d v w := by
  obtain ⟨t, hreq, ht⟩ := h.stored
  obtain ⟨userId, hd⟩ := h.decide
  constructor
  · rw [hd]
    rfl
  · intro i hi
    obtain ⟨clientId, hpoll⟩ := h.poll i hi
    rw [hpoll]
    trivial
  · intro e he
    obtain rfl := Option.some.inj (hreq.symm.trans he)
    rw [hd]
    exact ⟨⟨rfl, rfl⟩, h.pending, fun t' ht' => Option.some.inj ht' ▸ ht⟩
  · simp [hreq]
  · rw [hd]
    exact h.row

variable [DecidableEq ι]

/-- A poll has moved: what it holds, what it left stored, and the row are all there is to
check. -/
lemma Inv.poll_moved (h : Inv r₀ d v w) (hi : d ≠ i) (hnow : g'.now = w.shared.now)
    (hpoll : PollOk r₀ v (w.calls d).hasDecided w.shared.now l')
    (hstored : ∀ e, g'.request = some e → e.value.SameRequest r₀ ∧
      e.value.status = (if (w.calls d).hasDecided then verdict v else .pending) ∧
      ∀ t, e.deadline = some t → r₀.expiresAt ≤ t)
    (hmissing : g'.request = none → w.shared.request = none ∨ r₀.expiresAt ≤ w.shared.now ∨
      l'.HandedOver v)
    (hhanded : (w.calls i).HandedOver v → l'.HandedOver v)
    (hrow : RowOk v g'.row (w.calls d)) : Inv r₀ d v (w.next i g' l') where
  decider := by simpa [hi] using h.decider
  polls j hj := by
    simp only [Pool.next_shared, Pool.next_of_ne w hi, hnow]
    by_cases hji : j = i
    · simpa [hji] using hpoll
    · simpa [hji] using h.polls j hj
  stored e he := by
    simpa [Pool.next_of_ne w hi] using hstored e he
  missing hnone := by
    simp only [Pool.next_shared, hnow] at hnone ⊢
    rcases hmissing hnone with hbefore | hexp | hmine
    · rcases h.missing hbefore with hexp | ⟨p, hp⟩
      · exact Or.inl hexp
      · refine Or.inr ⟨p, ?_⟩
        by_cases hpi : p = i
        · subst hpi
          simpa using hhanded hp
        · simpa [hpi] using hp
    · exact Or.inl hexp
    · exact Or.inr ⟨i, by simpa using hmine⟩
  row := by simpa [hi] using hrow

lemma Inv.poll_read (h : Inv r₀ d v w) (hi : d ≠ i)
    (hpoll : PollOk r₀ v (w.calls d).hasDecided w.shared.now l')
    (hhanded : ¬ (w.calls i).HandedOver v) : Inv r₀ d v (w.next i w.shared l') :=
  h.poll_moved hi rfl hpoll h.stored Or.inl (fun hh => absurd hh hhanded) h.row

omit [DecidableEq ι] in
lemma Inv.deadline (h : Inv r₀ d v w) {t : Instant}
    (ht : w.shared.request.bind Entry.deadline = some t) : r₀.expiresAt ≤ t := by
  obtain ⟨e, hreq, hdl⟩ := Option.bind_eq_some_iff.mp ht
  exact (h.stored e hreq).2.2 t hdl

/-- A poll writes a pending record back.  The condition leaves only the write-backs before the
decision. -/
lemma Inv.poll_kept {soon : Bool} (h : Inv r₀ d v w) (hi : d ≠ i)
    (hC : w.shared.isPending = true ∨ ∀ j, (w.calls j).hasDecided = false)
    (hsame : r.SameRequest r₀) (hpend : r.status = .pending) (hnot : ¬ (w.calls i).HandedOver v) :
    Inv r₀ d v (w.next i { w.shared with request := w.shared.request.setKeepTtl r }
      (.returned (.poll (some (if soon then .slowDown else .pending))))) := by
  have hdec : (w.calls d).hasDecided = false := by
    rcases hC with hstill | hnone
    · by_contra hdec
      rw [h.not_pending (by simpa using hdec)] at hstill
      cases hstill
    · exact hnone d
  refine h.poll_moved hi rfl (by cases soon <;> trivial) ?_ (by simp [Slot.setKeepTtl])
    (fun hh => absurd hh hnot) h.row
  simp only [Slot.setKeepTtl, Option.some.injEq, forall_eq']
  exact ⟨hsame, by simp [hdec, hpend], fun t => h.deadline⟩

/-- **One step of a poll.** -/
lemma Inv.poll_step (h : Inv r₀ d v w) (hi : d ≠ i)
    (hC : PendingFound w (.call i k)) (hstep : act w.shared (w.calls i) k = some (g', l')) :
    Inv r₀ d v (w.next i g' l') := by
  have hpoll := h.polls i hi.symm
  cases k with
  | rollBack =>
      cases hl : w.calls i <;> simp [hl, act, Pc.holdsRow, PollOk] at hstep hpoll
  | go =>
      simp only [act] at hstep
      cases hl : w.calls i with
      | idle c =>
          rw [hl] at hstep hpoll
          obtain ⟨rfl, ⟨r, hget, rfl⟩ | rfl | ⟨userId, approval, rfl, rfl⟩⟩ := go_idle hstep
          · refine h.poll_read hi ?_ (by simp [hl, Pc.HandedOver])
            obtain ⟨e, hreq, rfl⟩ := Option.map_eq_some_iff.mp hget
            obtain ⟨hsame, hstatus, -⟩ := h.stored e hreq
            refine ⟨hsame, ?_⟩
            split_ifs at hstatus with hdec
            · exact Or.inr ⟨hdec, hstatus⟩
            · exact Or.inl hstatus
          · exact h.poll_read hi trivial (by simp [hl, Pc.HandedOver])
          · exact absurd hpoll id
      | polled r =>
          rw [hl] at hstep hpoll
          simp only [go, Option.some.injEq, Prod.mk.injEq] at hstep
          obtain ⟨rfl, rfl⟩ := hstep
          exact h.poll_read hi (pollDecide_ok hpoll) (by simp [hl, Pc.HandedOver])
      | polling c =>
          rw [hl] at hstep hpoll
          have hnot : ¬ (w.calls i).HandedOver v := by simp [hl, Pc.HandedOver]
          cases c with
          | expire =>
              simp only [go, Option.some.injEq, Prod.mk.injEq] at hstep
              obtain ⟨rfl, rfl⟩ := hstep
              exact h.poll_moved hi rfl hpoll (by simp [Slot.del])
                (fun _ => Or.inr (Or.inl hpoll)) (fun hh => absurd hh hnot) h.row
          | refuse =>
              simp only [go, Option.some.injEq, Prod.mk.injEq] at hstep
              obtain ⟨rfl, rfl⟩ := hstep
              exact h.poll_moved hi rfl hpoll (by simp [Slot.del])
                (fun _ => Or.inr (Or.inr hpoll.2)) (fun hh => absurd hh hnot) h.row
          | keep r soon =>
              simp only [go, Option.some.injEq, Prod.mk.injEq] at hstep
              obtain ⟨rfl, rfl⟩ := hstep
              have hC' := hC (by simp [hl, Pc.writes, hpoll.2, Status.isPending])
              exact h.poll_kept hi hC' hpoll.1 hpoll.2 hnot
          | take r a =>
              simp only [go] at hstep
              split at hstep
              · simp only [Option.some.injEq, Prod.mk.injEq] at hstep
                obtain ⟨rfl, rfl⟩ := hstep
                exact h.poll_read hi trivial hnot
              · simp only [Option.some.injEq, Prod.mk.injEq] at hstep
                obtain ⟨rfl, rfl⟩ := hstep
                exact h.poll_moved hi rfl hpoll (by simp [Slot.del])
                  (fun _ => Or.inr (Or.inr hpoll.2)) (fun hh => absurd hh hnot) h.row
      | consuming r a =>
          rw [hl] at hstep hpoll
          simp only [go, Option.some.injEq, Prod.mk.injEq] at hstep
          obtain ⟨rfl, rfl⟩ := hstep
          exact h.poll_moved hi rfl hpoll h.stored Or.inl (fun _ => hpoll.2) (rowOk_consume h.row)
      | returned a => simp [hl, go] at hstep
      | _ => simp [hl, PollOk] at hpoll

lemma Inv.decide_moved (h : Inv r₀ d v w) (hnow : g'.now = w.shared.now)
    (hreq : g'.request = w.shared.request) (hok : DecideOk r₀ v l')
    (hdec : l'.hasDecided = (w.calls d).hasDecided) (hrow : RowOk v g'.row l') :
    Inv r₀ d v (w.next d g' l') where
  decider := by simpa using hok
  polls j hj := by simpa [hj, hnow, hdec] using h.polls j hj
  stored e he := by simpa [hdec] using h.stored e (hreq ▸ he)
  missing hnone := by
    rcases h.missing (hreq ▸ hnone) with hexp | ⟨p, hp⟩
    · exact Or.inl (by simpa [hnow] using hexp)
    · refine Or.inr ⟨p, ?_⟩
      by_cases hpd : p = d
      · rw [hpd] at hp
        exact absurd hp h.decider.not_handedOver
      · simpa [hpd] using hp
  row := by simpa using hrow

lemma Inv.decide_stored (h : Inv r₀ d v w) (hl : w.calls d = .deciding r v)
    (hsame : r.SameRequest r₀) (hrow : RowOk v w.shared.row (.deciding r v)) :
    Inv r₀ d v (w.next d { w.shared with request := w.shared.request.setKeepTtl (r.decided v) }
      (.committing r v)) := by
  have hbefore : (w.calls d).hasDecided = false := by rw [hl]; rfl
  constructor
  · simpa [DecideOk] using hsame
  · intro j hj
    have hj' := h.polls j hj
    simpa [hj] using hj'.mono (le_refl _) (by simp [hbefore])
  · simp only [Pool.next_shared, Pool.next_self, Slot.setKeepTtl, Option.some.injEq, forall_eq']
    exact ⟨sameRequest_decided hsame v, by simp [Pc.hasDecided], fun t => h.deadline⟩
  · simp [Slot.setKeepTtl]
  · simpa [RowOk] using hrow

/-- **One step of the `decide`**, unless it is refused or rolled back. -/
lemma Inv.decide_step (h : Inv r₀ d v w)
    (hstep : act w.shared (w.calls d) k = some (g', l')) (hlive : l'.isLive = true) :
    Inv r₀ d v (w.next d g' l') := by
  have hok := h.decider
  have hrow := h.row
  cases k with
  | rollBack =>
      simp only [act] at hstep
      split_ifs at hstep
      cases hstep
      cases hlive
  | go =>
      simp only [act] at hstep
      cases hl : w.calls d with
      | idle c =>
          cases c with
          | poll clientId => simp [hl, DecideOk] at hok
          | decide userId v' =>
              rw [hl] at hstep hok hrow
              simp only [go, Option.some.injEq, Prod.mk.injEq] at hstep
              obtain ⟨rfl, rfl⟩ := hstep
              exact h.decide_moved rfl rfl hok (by simp [hl, Pc.hasDecided]) hrow
      | begun userId v' startedAt =>
          rw [hl] at hstep hok hrow
          simp only [go] at hstep
          split_ifs at hstep
          · cases hstep
            exact h.decide_moved rfl rfl hok (by simp [hl, Pc.hasDecided]) hrow
          · cases hstep
            cases hlive
      | rowLocked userId v' =>
          rw [hl] at hstep hok hrow
          simp only [go] at hstep
          split at hstep
          · cases hstep
            cases hlive
          · rename_i r hget
            split_ifs at hstep
            · cases hstep
              obtain ⟨e, hreq, rfl⟩ := Option.map_eq_some_iff.mp hget
              exact h.decide_moved rfl rfl ⟨hok, (h.stored e hreq).1⟩
                (by simp [hl, Pc.hasDecided]) hrow
            · cases hstep
              cases hlive
      | loaded r v' =>
          rw [hl] at hstep hok hrow
          simp only [go] at hstep
          split_ifs at hstep
          · cases hstep
            cases hlive
          · cases hstep
            exact h.decide_moved rfl rfl hok (by simp [hl, Pc.hasDecided]) hrow
      | deciding r v' =>
          rw [hl] at hstep hok hrow
          simp only [go, Option.some.injEq, Prod.mk.injEq] at hstep
          obtain ⟨rfl, rfl⟩ := hstep
          obtain ⟨rfl, hsame⟩ := hok
          exact h.decide_stored hl hsame hrow
      | committing r v' =>
          rw [hl] at hstep hok hrow
          simp only [go, Option.some.injEq, Prod.mk.injEq] at hstep
          obtain ⟨rfl, rfl⟩ := hstep
          obtain ⟨rfl, -⟩ := hok
          exact h.decide_moved rfl rfl trivial (by simp [hl, Pc.hasDecided])
            (agrees_decide hrow v')
      | _ => simp_all [go, DecideOk]

lemma isLive_of_act (h : act g l k = some (g', l')) : l.isLive = true := by
  cases l with
  | returned a => cases k <;> cases h
  | rolledBack => cases k <;> cases h
  | _ => rfl

/-- **The invariant holds along every schedule** in which no call writes a pending record over a
decision, as long as the `decide` is live. -/
theorem Fresh.run_inv (h : Fresh r₀ d v w) (hmeets : (calls ι).machine.Meets PendingFound w as)
    (hrun : (calls ι).machine.run w as = some w₁) : (w₁.calls d).isLive = true → Inv r₀ d v w₁ := by
  refine Calls.run_inv (I := fun w => (w.calls d).isLive = true → Inv r₀ d v w) ?_ ?_ hmeets hrun
    (fun _ => h.inv)
  · intro w i k g' l' hinv hC hstep hlive
    by_cases hi : d = i
    · subst hi
      rw [Pool.next_self] at hlive
      exact (hinv (isLive_of_act hstep)).decide_step hstep hlive
    · rw [Pool.next_of_ne w hi] at hlive
      exact (hinv hlive).poll_step hi hC hstep
  · intro w e g' hinv _ hstep hlive
    exact (hinv hlive).env_step hstep

/-! ## Polls that start after the decision -/

/-- What an owner's poll that started after the decision may hold. -/
def LateOk (r₀ : CibaRecord) (v : Option Approval) (w : Pool ι Store Pc) : Pc → Prop
  | .idle (.poll clientId) => clientId = r₀.clientId
  | .polled r => r.SameRequest r₀ ∧ r.status = verdict v
  | .polling (.take _ a) | .consuming _ a => v = some a
  | .polling .refuse => v = none
  | .polling .expire => r₀.expiresAt ≤ w.shared.now
  | .returned (.poll (some p)) => p.Tells v ∨ r₀.expiresAt ≤ w.shared.now
  | .returned (.poll none) => r₀.expiresAt ≤ w.shared.now ∨ ∃ p, (w.calls p).HandedOver v
  | _ => False

lemma act_handedOver (h : act g l k = some (g', l')) (hl : l.HandedOver v) :
    l'.HandedOver v := by
  cases l with
  | consuming r a =>
      cases k with
      | go => cases h; exact hl
      | rollBack => cases h
  | returned a => cases k <;> cases h
  | _ => exact absurd hl id

lemma handedOver_next (hstep : act w.shared (w.calls i) k = some (g', l'))
    (h : ∃ p, (w.calls p).HandedOver v) : ∃ p, ((w.next i g' l').calls p).HandedOver v := by
  obtain ⟨p, hp⟩ := h
  refine ⟨p, ?_⟩
  by_cases hpi : p = i
  · subst hpi
    simpa using act_handedOver hstep hp
  · simpa [hpi] using hp

omit [DecidableEq ι] in
lemma LateOk.mono (h : LateOk r₀ v w l) (hnow : w.shared.now ≤ w₁.shared.now)
    (hhanded : (∃ p, (w.calls p).HandedOver v) → ∃ p, (w₁.calls p).HandedOver v) :
    LateOk r₀ v w₁ l := by
  cases l with
  | polling c =>
      cases c with
      | expire => exact le_trans h hnow
      | _ => exact h
  | returned a =>
      cases a with
      | decide x => exact h
      | poll p =>
          cases p with
          | none => exact h.imp (fun hexp => le_trans hexp hnow) hhanded
          | some p => exact h.imp_right fun hexp => le_trans hexp hnow
  | idle c => cases c <;> exact h
  | _ => exact h

lemma act_now (h : act g l k = some (g', l')) : g'.now = g.now := by
  revert h
  cases k with
  | rollBack =>
      intro h
      simp only [act] at h
      split_ifs at h
      cases h
      rfl
  | go =>
      simp only [act]
      fun_cases go g l <;> intro h <;> cases h <;> rfl

omit [DecidableEq ι] in
lemma pollDecide_late (hsame : r.SameRequest r₀) (hstatus : r.status = verdict v) :
    LateOk r₀ v w (.polling (pollDecide r w.shared.now)) := by
  by_cases hexp : r.isExpired w.shared.now = true
  · rw [pollDecide, if_pos hexp]
    simp only [CibaRecord.isExpired, decide_eq_true_eq] at hexp
    simpa [LateOk, ← hsame.2] using hexp
  · rw [pollDecide, if_neg hexp, hstatus]
    cases v with
    | none => rfl
    | some a => rfl

omit [DecidableEq ι] in
/-- **One step of a late poll**: over a decided request it is told the decision. -/
lemma late_step (h : Inv r₀ d v w) (hdec : (w.calls d).hasDecided = true)
    (hlate : LateOk r₀ v w (w.calls q)) (hstep : act w.shared (w.calls q) k = some (g', l')) :
    LateOk r₀ v w l' := by
  have hstored : ∀ r, w.shared.request.get = some r → r.SameRequest r₀ ∧ r.status = verdict v := by
    intro r hget
    obtain ⟨e, hreq, rfl⟩ := Option.map_eq_some_iff.mp hget
    obtain ⟨hsame, hstatus, -⟩ := h.stored e hreq
    rw [if_pos hdec] at hstatus
    exact ⟨hsame, hstatus⟩
  cases k with
  | rollBack => cases hl : w.calls q <;> simp [hl, act, Pc.holdsRow, LateOk] at hstep hlate
  | go =>
      simp only [act] at hstep
      cases hl : w.calls q with
      | idle c =>
          rw [hl] at hstep hlate
          cases c with
          | decide userId v' => exact absurd hlate id
          | poll clientId =>
              obtain ⟨rfl, ⟨r, hget, rfl⟩ | ⟨rfl, hother⟩⟩ := go_poll hstep
              · exact hstored r hget
              · refine h.missing ?_
                cases hreq : w.shared.request with
                | none => rfl
                | some e =>
                    have hget : w.shared.request.get = some e.value := by rw [hreq]; rfl
                    exact absurd ((hstored _ hget).1.1.trans hlate.symm) (hother _ hget)
      | polled r =>
          rw [hl] at hstep hlate
          simp only [go, Option.some.injEq, Prod.mk.injEq] at hstep
          obtain ⟨rfl, rfl⟩ := hstep
          exact pollDecide_late hlate.1 hlate.2
      | polling c =>
          rw [hl] at hstep hlate
          cases c with
          | expire =>
              simp only [go, Option.some.injEq, Prod.mk.injEq] at hstep
              obtain ⟨rfl, rfl⟩ := hstep
              exact Or.inr hlate
          | refuse =>
              simp only [go, Option.some.injEq, Prod.mk.injEq] at hstep
              obtain ⟨rfl, rfl⟩ := hstep
              exact Or.inl hlate
          | keep r soon => exact absurd hlate id
          | take r a =>
              simp only [go] at hstep
              split at hstep
              · rename_i hget
                simp only [Option.some.injEq, Prod.mk.injEq] at hstep
                obtain ⟨rfl, rfl⟩ := hstep
                exact h.missing (Slot.get_eq_none.mp hget)
              · simp only [Option.some.injEq, Prod.mk.injEq] at hstep
                obtain ⟨rfl, rfl⟩ := hstep
                exact hlate
      | consuming r a =>
          rw [hl] at hstep hlate
          simp only [go, Option.some.injEq, Prod.mk.injEq] at hstep
          obtain ⟨rfl, rfl⟩ := hstep
          exact Or.inl hlate
      | returned a => simp [hl, go] at hstep
      | _ => simp [hl, LateOk] at hlate

omit [DecidableEq ι] in
lemma ne_of_returned {a : Answer} (hd : w.calls d = .returned a)
    (hstep : act w.shared (w.calls i) k = some (g', l')) : d ≠ i := by
  rintro rfl
  rw [hd] at hstep
  cases k <;> simp [act, go, Pc.holdsRow] at hstep

/-- **A late poll along a schedule**, once the `decide` has returned. -/
theorem Inv.run_late {granted : Option (Uuid × List String)} (h : Inv r₀ d v w₁)
    (hd : w₁.calls d = .returned (.decide (.ok granted))) (hlate : LateOk r₀ v w₁ (w₁.calls q))
    (hmeets : (calls ι).machine.Meets PendingFound w₁ bs)
    (hrun : (calls ι).machine.run w₁ bs = some w₂) :
    Inv r₀ d v w₂ ∧ LateOk r₀ v w₂ (w₂.calls q) := by
  have hinv := Calls.run_inv (I := fun w => Inv r₀ d v w ∧
    w.calls d = .returned (.decide (.ok granted)) ∧ LateOk r₀ v w (w.calls q))
    ?_ ?_ hmeets hrun ⟨h, hd, hlate⟩
  · exact ⟨hinv.1, hinv.2.2⟩
  · rintro w i k g' l' ⟨h, hd, hlate⟩ hC hstep
    have hi : d ≠ i := ne_of_returned hd hstep
    refine ⟨h.poll_step hi hC hstep, by rw [Pool.next_of_ne w hi, hd], ?_⟩
    have hnow : w.shared.now ≤ (w.next i g' l').shared.now := by simp [act_now hstep]
    by_cases hqi : q = i
    · subst hqi
      rw [Pool.next_self]
      have hdec : (w.calls d).hasDecided = true := by rw [hd]; rfl
      exact (late_step h hdec hlate hstep).mono hnow (handedOver_next hstep)
    · rw [Pool.next_of_ne w hqi]
      exact hlate.mono hnow (handedOver_next hstep)
  · rintro w e g' ⟨h, hd, hlate⟩ _ hstep
    refine ⟨h.env_step hstep, hd, hlate.mono ?_ id⟩
    cases e with
    | tick n =>
        simp only [calls, env, Option.some.injEq] at hstep
        subst hstep
        exact Int.le_add_of_nonneg_right (Int.natCast_nonneg n)
    | expire =>
        simp only [calls, env, Option.map_eq_some_iff] at hstep
        obtain ⟨s, -, rfl⟩ := hstep
        exact le_refl _

/-! ## The decision survives -/

/-- Record and row both say what the answer `v` says; a record that is gone has been handed over
with that decision. -/
structure Agree (v : Option Approval) (w : Pool ι Store Pc) : Prop where
  row : w.shared.row.Agrees v
  record : ∀ r, w.shared.request.get = some r → r.status = verdict v
  gone : w.shared.request = none → ∃ p, (w.calls p).HandedOver v

/-- The decision `v` that call `d` made (returned by the end of `as`) stands, in the course of
`bs`, as long as the request `r₀` has not expired: record and row agree, and an owner's poll that
starts afterwards is told the decision, or finds that another poll has been handed it. -/
def DecisionSurvives (r₀ : CibaRecord) (d : ι) (v : Option Approval) (w : Pool ι Store Pc)
    (as bs : List (Pick ι Choice Env)) : Prop :=
  ∀ w₁ w₂ granted, (calls ι).machine.run w as = some w₁ →
    w₁.calls d = .returned (.decide (.ok granted)) →
    (calls ι).machine.run w₁ bs = some w₂ → w₂.shared.now < r₀.expiresAt →
    Agree v w₂ ∧
    ∀ q answer, w₁.calls q = .idle (.poll r₀.clientId) → w₂.calls q = .returned (.poll answer) →
      (∃ p, answer = some p ∧ p.Tells v) ∨
      (answer = none ∧ ∃ p, p ≠ q ∧ (w₂.calls p).HandedOver v)

/-- **A decision survives polling** in every schedule in which no call writes a pending record
back once the decision is made, unless it still finds a pending one. -/
theorem decision_survives (hfresh : Fresh r₀ d v w)
    (hmeets : (calls ι).machine.Meets PendingFound w (as ++ bs)) :
    DecisionSurvives r₀ d v w as bs := by
  intro w₁ w₂ granted hrun₁ hd hrun₂ hlive
  obtain ⟨hmeets₁, hmeets₂⟩ := hmeets.of_append hrun₁
  have hunexpired : ¬ r₀.expiresAt ≤ w₂.shared.now := not_le.mpr hlive
  have hinv₁ : Inv r₀ d v w₁ := hfresh.run_inv hmeets₁ hrun₁ (by rw [hd]; rfl)
  have hd₂ : w₂.calls d = .returned (.decide (.ok granted)) := by
    refine Calls.run_inv (I := fun w => w.calls d = .returned (.decide (.ok granted))) ?_ ?_
      hmeets₂ hrun₂ hd
    · intro w i k g' l' hd _ hstep
      rw [Pool.next_of_ne w (ne_of_returned hd hstep), hd]
    · intro w e g' hd _ _
      exact hd
  have hinv₂ : Inv r₀ d v w₂ :=
    hfresh.run_inv hmeets (Machine.run_append.mpr ⟨w₁, hrun₁, hrun₂⟩) (by rw [hd₂]; rfl)
  refine ⟨⟨?_, ?_, ?_⟩, ?_⟩
  · simpa [RowOk, hd₂] using hinv₂.row
  · intro r hget
    obtain ⟨e, hreq, rfl⟩ := Option.map_eq_some_iff.mp hget
    simpa [hd₂, Pc.hasDecided] using (hinv₂.stored e hreq).2.1
  · intro hnone
    exact (hinv₂.missing hnone).resolve_left hunexpired
  · intro q answer hq hanswer
    have hlate : LateOk r₀ v w₁ (w₁.calls q) := by rw [hq]; rfl
    obtain ⟨-, hlate₂⟩ := hinv₁.run_late hd hlate hmeets₂ hrun₂
    rw [hanswer] at hlate₂
    cases answer with
    | none =>
        obtain ⟨p, hp⟩ := Or.resolve_left hlate₂ hunexpired
        refine Or.inr ⟨rfl, p, ?_, hp⟩
        rintro rfl
        rw [hanswer] at hp
        exact hp
    | some p => exact Or.inl ⟨p, rfl, Or.resolve_right hlate₂ hunexpired⟩

end

/-! ## The schedule that undoes a decision -/

lemma fresh_pollRace : Fresh request 3 (some approval) pollRace where
  stored := ⟨seconds 600, rfl, by decide⟩
  pending := rfl
  row := rfl
  decide := ⟨4, rfl⟩
  poll i hi := ⟨3, by revert i; decide⟩

/-- **A decision undone.**  Poll 0 reads the pending record; the user approves; poll 0's write-back
puts the pending record over the approval.  The row says approved, the record pending, and poll 1,
which starts after all that, is told to slow down. -/
theorem decision_undone : Fresh request 3 (some approval) pollRace ∧
    (∃ w, (calls (Fin 4)).machine.run pollRace
        ((steps 0 2 ++ steps 3 6) ++ (steps 0 1 ++ steps 1 3)) = some w ∧
      w.shared.row.status = .approved ∧ w.calls 1 = .returned (.poll (some .slowDown))) ∧
    ¬ DecisionSurvives request 3 (some approval) pollRace (steps 0 2 ++ steps 3 6)
      (steps 0 1 ++ steps 1 3) := by
  refine ⟨fresh_pollRace, ⟨_, rfl, rfl, rfl⟩, fun h => ?_⟩
  obtain ⟨⟨-, hrecord, -⟩, -⟩ := h _ _ _ rfl rfl rfl (by decide)
  exact absurd (hrecord _ rfl) (by decide)

/-- With the write-back of poll 0 before the decision, the decision stands. -/
theorem decision_survives_inTurn : Fresh request 3 (some approval) pollRace ∧
    DecisionSurvives request 3 (some approval) pollRace (steps 0 3 ++ steps 3 6) (steps 1 4) :=
  ⟨fresh_pollRace, decision_survives fresh_pollRace (by decide)⟩

end Ridm.Ciba
