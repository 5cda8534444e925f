import Mathlib.Data.Finset.Card
import Ridm.RateLimits.Counting

/-!
# Windows counted by many nodes

A counter's window opens with the first request after the last one closed, and is as long as the policy says.
So in any stretch of time that is shorter than a window at most two windows of a counter are open, the first of
which was opened by a request before the stretch, and fewer than twice the limit of its requests are allowed
(`fewer_than_twice`); and whoever is refused was preceded by as many requests as the limit allows, none of them
older than a window (`refused_after_limit`).
-/

namespace Ridm.RateLimits

/-! ## Beats -/

/-- A step of a request in beats: a script call adds to one counter after the other. -/
inductive Beat {ι : Type} (T : Traffic ι) (i : ι) (s : Server) : Call → Server → Call → Prop
  | begins : Beat T i s .idle s (.counting (T.plan i) (List.replicate (T.wants i).length (0, 0)))
  | hits (p : ℕ) (ps : List ℕ) (gs : List (List ℕ)) (out : List (ℕ × ℕ)) :
      Beat T i s (.counting ((p :: ps) :: gs) out)
        { s with keys := (hitOne (T.wants i) s.now (s.keys, out) p).1 }
        (.counting (ps :: gs) (hitOne (T.wants i) s.now (s.keys, out) p).2)
  | returns (gs : List (List ℕ)) (out : List (ℕ × ℕ)) : Beat T i s (.counting ([] :: gs) out) s (.counting gs out)
  | decides (out : List (ℕ × ℕ)) : Beat T i s (.counting [] out) s (.decided out)
  | fails {l : Call} (hl : l.ended = false) : Beat T i s l s .failedOpen

section

variable {ι : Type} [DecidableEq ι] {T : Traffic ι} {i : ι} {w : Pool ι Server Call} {s s' : Server} {l l' : Call}
  {d : Delivery} {I : Pool ι Server Call → Prop}

lemma next_next {g g' : Server} : (w.next i g l).next i g' l' = w.next i g' l' := by
  simp [Pool.next]

variable {out : List (ℕ × ℕ)} {keys : String → Slot ℕ}

lemma keeps_hitMany (hbeat : ∀ {w i s l}, I w → Beat T i w.shared (w.calls i) s l → I (w.next i s l))
    (ps : List ℕ) (gs : List (List ℕ)) (hw : I (w.next i s (.counting (ps :: gs) out))) :
    I (w.next i (hitMany (T.wants i) s out ps).1 (.counting gs (hitMany (T.wants i) s out ps).2)) := by
  induction ps generalizing s out with
  | nil =>
      have hreturns := hbeat (i := i) hw (by
        rw [Pool.next_self, Pool.next_shared]
        exact .returns gs out)
      rwa [next_next] at hreturns
  | cons p ps ih =>
      have hhit := hbeat (i := i) hw (by
        rw [Pool.next_self, Pool.next_shared]
        exact .hits p ps gs out)
      rw [next_next] at hhit
      exact ih hhit

/-- **The rule**: what beats keep, steps keep. -/
theorem keeps_act (hbeat : ∀ {w i s l}, I w → Beat T i w.shared (w.calls i) s l → I (w.next i s l))
    (h : T.act i w.shared (w.calls i) d = some (s, l)) (hw : I w) : I (w.next i s l) := by
  have hself : w.next i w.shared (w.calls i) = w := by simp [Pool.next]
  generalize hl : w.calls i = l₀ at h
  cases l₀ with
  | idle =>
      cases d with
      | answered =>
          cases h
          exact hbeat hw (hl ▸ .begins)
      | unsent | unanswered =>
          cases h
          exact hbeat hw (hl ▸ .fails rfl)
  | counting left out =>
      cases left with
      | nil =>
          cases h
          exact hbeat hw (hl ▸ .decides out)
      | cons g gs =>
          rw [← hself, hl] at hw
          cases d with
          | unsent =>
              cases h
              have hfails := hbeat (i := i) hw (by
                rw [Pool.next_self, Pool.next_shared]
                exact .fails rfl)
              rwa [next_next] at hfails
          | unanswered =>
              cases h
              have hcounted := keeps_hitMany hbeat g gs hw
              have hfails := hbeat (i := i) hcounted (by
                rw [Pool.next_self, Pool.next_shared]
                exact .fails rfl)
              rwa [next_next] at hfails
          | answered =>
              cases h
              exact keeps_hitMany hbeat g gs hw
  | decided out | failedOpen => cases h

end

/-! ## Where a request stands -/

/-- Its counter at a place is yet to be added to. -/
def Call.Awaits (p : ℕ) : Call → Prop
  | .idle => True
  | .counting left _ => p ∈ left.flatten
  | .decided _ | .failedOpen => False

def Call.countAt (p : ℕ) : Call → Option ℕ
  | .counting left out => if p ∈ left.flatten then none else out[p]?.map (·.1)
  | .decided out => out[p]?.map (·.1)
  | .idle | .failedOpen => none

/-- Of `n` counters each has its place in the answer, and is yet to be added to once at most. -/
def Call.Shape (n : ℕ) : Call → Prop
  | .counting left out => out.length = n ∧ left.flatten.Nodup
  | .decided out => out.length = n
  | .idle | .failedOpen => True

section

variable {ι : Type} {T : Traffic ι} {i j : ι} {s s' : Server} {l l' : Call} {b : Want} {p : ℕ}

lemma plan_perm (T : Traffic ι) (i : ι) : (T.plan i).flatten.Perm (List.range (T.wants i).length) :=
  groups_perm ..

lemma mem_plan (h : (T.wants i)[p]? = some b) : p ∈ (T.plan i).flatten :=
  (plan_perm T i).mem_iff.mpr (List.mem_range.mpr (List.getElem?_eq_some_iff.mp h).1)

lemma place_unique {q : ℕ} (hp : (T.wants i)[p]? = some b) (hq : (T.wants i)[q]? = some b) : p = q :=
  (List.getElem?_inj (List.getElem?_eq_some_iff.mp hp).1 (wants_nodup T.limits (T.request i))).mp
    (hp.trans hq.symm)

lemma Beat.now_eq (h : Beat T i s l s' l') : s'.now = s.now := by
  cases h <;> rfl

lemma Beat.ne_idle (h : Beat T i s l s' l') : l' ≠ .idle := by
  cases h <;> simp

lemma Beat.not_ended (h : Beat T i s l s' l') : l.ended = false := by
  cases h with
  | begins | hits p ps gs out | returns gs out | decides out => rfl
  | fails hl => exact hl

lemma hitOne_eq {now : Instant} (h : (T.wants i)[p]? = some b) :
    hitOne (T.wants i) now (keys, out) p =
      (Function.update keys b.key (hitKey (keys b.key) b.windowMs now).2,
        out.set p (pairOf (hitKey (keys b.key) b.windowMs now).1)) := by
  rw [hitOne, h]

lemma hitOne_key_of_ne {now : Instant}
    (h : (T.wants i)[p]? ≠ some b) (hkey : ∀ w ∈ T.wants i, w.key = b.key → w = b) :
    (hitOne (T.wants i) now (keys, out) p).1 b.key = keys b.key := by
  rw [hitOne]
  cases hw : (T.wants i)[p]? with
  | none => rfl
  | some w =>
      refine Function.update_of_ne (fun heq => h ?_) ..
      rw [hw, hkey w (List.mem_of_getElem? hw) heq.symm]

lemma hitOne_get_of_ne {now : Instant} {q : ℕ} (h : q ≠ p) :
    (hitOne (T.wants i) now (keys, out) p).2[q]? = out[q]? := by
  rw [hitOne]
  cases (T.wants i)[p]? with
  | none => rfl
  | some w => exact List.getElem?_set_ne h.symm

/-- A beat does not touch a counter. -/
structure Quiet (T : Traffic ι) (b : Want) (i : ι) (s : Server) (l : Call) (s' : Server) (l' : Call) : Prop where
  key : s'.keys b.key = s.keys b.key
  count : ∀ {p n}, (T.wants i)[p]? = some b → l'.countAt p = some n → l.countAt p = some n
  settled : ∀ {p}, (T.wants i)[p]? = some b → ¬ l.Awaits p → ¬ l'.Awaits p

/-- A beat adds to a counter. -/
structure Hit (T : Traffic ι) (b : Want) (i : ι) (p : ℕ) (s : Server) (l : Call) (s' : Server) (l' : Call) :
    Prop where
  place : (T.wants i)[p]? = some b
  awaits : l.Awaits p
  settled : ¬ l'.Awaits p
  key : s'.keys b.key = (hitKey (s.keys b.key) b.windowMs s.now).2
  count : l'.countAt p = some (hitKey (s.keys b.key) b.windowMs s.now).1.1

/-- **A beat adds to a counter or leaves it alone.** -/
theorem Beat.quiet_or_hit (h : Beat T i s l s' l') (hshape : l.Shape (T.wants i).length)
    (hkey : ∀ w ∈ T.wants i, w.key = b.key → w = b) :
    Quiet T b i s l s' l' ∨ ∃ p, Hit T b i p s l s' l' := by
  cases h with
  | begins =>
      refine .inl ⟨rfl, fun {p n} hp hn => ?_, fun {p} hp hover => absurd trivial hover⟩
      rw [Call.countAt, if_pos (mem_plan hp)] at hn
      cases hn
  | hits p ps gs out =>
      obtain ⟨hlen, hnodup⟩ := hshape
      rw [List.flatten_cons, List.cons_append] at hnodup
      have hp : p ∉ (ps :: gs).flatten := (List.nodup_cons.mp hnodup).1
      by_cases hplace : (T.wants i)[p]? = some b
      · right
        have hlt : p < out.length := hlen ▸ (List.getElem?_eq_some_iff.mp hplace).1
        refine ⟨p, hplace, ?_, hp, ?_, ?_⟩
        · show p ∈ _
          simp
        · show (hitOne _ _ _ _).1 b.key = _
          rw [hitOne_eq hplace]
          exact Function.update_self ..
        · rw [hitOne_eq hplace, Call.countAt, if_neg hp, List.getElem?_set_self hlt]
          rfl
      · left
        refine ⟨hitOne_key_of_ne hplace hkey, fun {q n} hq hn => ?_, fun {q} hq hover hawaits => ?_⟩
        · have hqp : q ≠ p := fun hqp => hplace (hqp ▸ hq)
          rw [Call.countAt, hitOne_get_of_ne hqp] at hn
          have hmem : q ∈ ((p :: ps) :: gs).flatten ↔ q ∈ (ps :: gs).flatten := by
            rw [List.flatten_cons, List.cons_append, List.mem_cons, or_iff_right hqp, ← List.flatten_cons]
          simp only [Call.countAt, hmem]
          exact hn
        · exact hover (List.mem_cons_of_mem p hawaits)
  | returns gs out => exact .inl ⟨rfl, fun _ hn => hn, fun _ hover => hover⟩
  | decides out =>
      refine .inl ⟨rfl, fun _ hn => ?_, fun _ _ => id⟩
      simpa [Call.countAt] using hn
  | fails hl => exact .inl ⟨rfl, fun _ hn => (nomatch hn), fun _ _ => id⟩

lemma Beat.shape (h : Beat T i s l s' l') (hshape : l.Shape (T.wants i).length) :
    l'.Shape (T.wants i).length := by
  cases h with
  | begins => exact ⟨List.length_replicate, (plan_perm T i).nodup_iff.mpr List.nodup_range⟩
  | hits p ps gs out =>
      obtain ⟨hlen, hnodup⟩ := hshape
      rw [List.flatten_cons, List.cons_append] at hnodup
      refine ⟨?_, (List.nodup_cons.mp hnodup).2⟩
      rw [← hlen, hitOne]
      cases (T.wants i)[p]? with
      | none => rfl
      | some w => exact List.length_set
  | returns gs out => exact hshape
  | decides out => exact hshape.1
  | fails hl => trivial

end

/-! ## What holds at all times -/

variable {ι : Type} {T : Traffic ι} {w w' w₀ : Pool ι Server Call} {i j : ι} {s : Server} {l : Call} {b : Want}
  {now : Instant} {as bs cs : List (Pick ι Delivery ℕ)}

/-- What is under a key. -/
def Server.count (s : Server) (key : String) : Slot ℕ := (s.keys key).found s.now

def Wanted (T : Traffic ι) (b : Want) : Prop := ∃ i, b ∈ T.wants i

/-- A counter that is there has counted something, and its window is no longer than it should be. -/
structure Inv (T : Traffic ι) (w : Pool ι Server Call) : Prop where
  shape : ∀ i, (w.calls i).Shape (T.wants i).length
  window : ∀ {b e}, Wanted T b → w.shared.count b.key = some e →
    e.value ≠ 0 ∧ ∃ d, e.deadline = some d ∧ d ≤ w.shared.now + b.windowMs

lemma Wanted.eq_of_key (hb : Wanted T b) : ∀ x ∈ T.wants i, x.key = b.key → x = b := by
  obtain ⟨j, hj⟩ := hb
  exact fun x hx h => want_of_key hx hj h

lemma Wanted.window_pos (hb : Wanted T b) : 0 < b.windowMs := by
  obtain ⟨j, hj⟩ := hb
  rw [Traffic.wants, wants_eq, List.mem_map] at hj
  obtain ⟨c, -, rfl⟩ := hj
  cases c with
  | address ip => exact Nat.succ_pos _
  | tenantAddress t category ip | tenant t | client t c =>
      show 0 < windowMs _
      rw [windowMs]
      omega

lemma Inv.hit {p : ℕ} {l' : Call} {s : Server} (hw : Inv T w) (hb : Wanted T b)
    (h : Hit T b i p w.shared (w.calls i) s l') (hnow : s.now = w.shared.now) :
    w.shared.count b.key = none ∧ l'.countAt p = some 1 ∧
        s.count b.key = some ⟨1, some (w.shared.now + b.windowMs)⟩ ∨
      ∃ c d, w.shared.count b.key = some ⟨c, some d⟩ ∧ l'.countAt p = some (c + 1) ∧
        s.count b.key = some ⟨c + 1, some d⟩ := by
  cases hfound : w.shared.count b.key with
  | none =>
      left
      have hkey := h.key
      rw [hitKey_none hfound] at hkey
      refine ⟨rfl, by rw [h.count, hitKey_none hfound], ?_⟩
      rw [Server.count, hkey, hnow]
      refine Slot.found_eq_some.mpr ⟨rfl, fun d hd => Option.some.inj hd ▸ ?_⟩
      exact Int.lt_add_of_pos_right _ (by exact_mod_cast hb.window_pos)
  | some e =>
      right
      obtain ⟨hne, d, hd, -⟩ := hw.window hb hfound
      have hentry : w.shared.count b.key = some ⟨e.value, some d⟩ := by rw [hfound, ← hd]
      have hkey := h.key
      rw [hitKey_some hentry hne] at hkey
      refine ⟨e.value, d, by rw [← hd], by rw [h.count, hitKey_some hentry hne], ?_⟩
      rw [Server.count, hkey, hnow]
      refine Slot.found_eq_some.mpr ⟨rfl, fun d' hd' => ?_⟩
      exact (Slot.found_eq_some.mp hentry).2 d' hd'

lemma Quiet.count_eq (h : Quiet T b i w.shared l s l') (hnow : s.now = w.shared.now) :
    s.count b.key = w.shared.count b.key := by
  rw [Server.count, Server.count, h.key, hnow]

lemma count_later {s : Server} {key : String} {d : ℕ} {e : Entry ℕ}
    (h : Server.count { s with now := s.now + d } key = some e) : s.count key = some e :=
  Slot.found_of_le h (Int.le_add_of_nonneg_right (Int.natCast_nonneg d))

variable [DecidableEq ι]

lemma Inv.beat (hw : Inv T w) (h : Beat T i w.shared (w.calls i) s l) : Inv T (w.next i s l) := by
  refine ⟨Pool.next_forall (p := fun i (l : Call) => l.Shape (T.wants i).length) (h.shape (hw.shape i))
    fun j _ => hw.shape j, fun {b e} hb he => ?_⟩
  rw [Pool.next_shared] at he ⊢
  rw [h.now_eq]
  rcases h.quiet_or_hit (hw.shape i) hb.eq_of_key with hquiet | ⟨p, hhit⟩
  · rw [hquiet.count_eq h.now_eq] at he
    exact hw.window hb he
  · rcases hw.hit hb hhit h.now_eq with ⟨-, -, hnew⟩ | ⟨c, d, hbefore, -, hnew⟩
    · obtain rfl := Option.some.inj (hnew.symm.trans he)
      exact ⟨Nat.one_ne_zero, _, rfl, Int.le_refl _⟩
    · obtain rfl := Option.some.inj (hnew.symm.trans he)
      obtain ⟨-, d', hd', hle⟩ := hw.window hb hbefore
      exact ⟨Nat.succ_ne_zero c, d', hd', hle⟩

omit [DecidableEq ι] in
lemma Inv.later (hw : Inv T w) (d : ℕ) : Inv T ⟨{ w.shared with now := w.shared.now + d }, w.calls⟩ := by
  refine ⟨hw.shape, fun hb he => ?_⟩
  obtain ⟨hne, d', hd', hle⟩ := hw.window hb (count_later he)
  exact ⟨hne, d', hd', Int.le_trans hle
    (Int.add_le_add_right (Int.le_add_of_nonneg_right (Int.natCast_nonneg d)) _)⟩

/-- **The rule for runs**: what beats keep, and time, holds in every state of a run. -/
theorem keeps_run {I : Pool ι Server Call → Prop}
    (hbeat : ∀ {w i s l}, I w → Beat T i w.shared (w.calls i) s l → I (w.next i s l))
    (hlater : ∀ {w} {d : ℕ}, I w → I ⟨{ w.shared with now := w.shared.now + d }, w.calls⟩)
    (hrun : T.run.machine.run w as = some w') (hw : I w) : I w' := by
  refine Calls.run_inv (C := fun _ _ => True) ?_ ?_ (Machine.meets_of_forall (fun _ _ => trivial) _ _) hrun hw
  · intro w i k s l hw _ hact
    exact keeps_act hbeat hact hw
  · intro w d s hw _ henv
    cases henv
    exact hlater hw

lemma inv_run (hrun : T.run.machine.run (start now) as = some w) : Inv T w := by
  refine keeps_run (fun hw h => hw.beat h) (fun hw => hw.later _) hrun ⟨fun _ => trivial, fun _ he => ?_⟩
  cases he

/-! ## Twice the limit -/

/-- A request that had not begun at the start of a stretch has been counted since, within the limit. -/
def Passed (T : Traffic ι) (b : Want) (w₀ w : Pool ι Server Call) (i : ι) : Prop :=
  w₀.calls i = .idle ∧ ∃ p n, (T.wants i)[p]? = some b ∧ (w.calls i).countAt p = some n ∧ n ≤ b.limit.toNat

/-- No more than `n` have. -/
def AtMost (T : Traffic ι) (b : Want) (w₀ w : Pool ι Server Call) (n : ℕ) : Prop :=
  ∀ S : Finset ι, (∀ i ∈ S, Passed T b w₀ w i) → S.card ≤ n

/-- **How many have passed since `w₀`.**  Of the requests of a window that was open then the first is not one of
them; a window that was opened since comes after that one, and is open until the stretch is over. -/
structure Tally (T : Traffic ι) (b : Want) (w₀ w : Pool ι Server Call) : Prop where
  inv : Inv T w
  now : w₀.shared.now ≤ w.shared.now
  closed : w.shared.count b.key = none → AtMost T b w₀ w (b.limit.toNat - 1)
  opened : ∀ e, w.shared.count b.key = some e → AtMost T b w₀ w (min e.value b.limit.toNat - 1) ∨
    AtMost T b w₀ w (b.limit.toNat - 1 + min e.value b.limit.toNat) ∧
      ∀ d ∈ e.deadline, w₀.shared.now + b.windowMs ≤ d

omit [DecidableEq ι] in
lemma AtMost.mono {m n : ℕ} (h : AtMost T b w₀ w m) (hle : m ≤ n) : AtMost T b w₀ w n :=
  fun S hS => (h S hS).trans hle

lemma Passed.of_quiet (h : Quiet T b i w.shared (w.calls i) s l) (hj : Passed T b w₀ (w.next i s l) j) :
    Passed T b w₀ w j := by
  obtain ⟨hidle, p, n, hp, hn, hle⟩ := hj
  refine ⟨hidle, p, n, hp, ?_, hle⟩
  rcases Pool.next_read (f := Call.countAt p) hn with ⟨rfl, hself⟩ | hother
  · exact h.count hp hself
  · exact hother

lemma AtMost.quiet {m : ℕ} (hw : AtMost T b w₀ w m) (h : Quiet T b i w.shared (w.calls i) s l) :
    AtMost T b w₀ (w.next i s l) m :=
  fun S hS => hw S fun j hj => (hS j hj).of_quiet h

lemma AtMost.hit {m n p : ℕ} (hw : AtMost T b w₀ w m) (h : Hit T b i p w.shared (w.calls i) s l)
    (hn : l.countAt p = some n) :
    AtMost T b w₀ (w.next i s l) (m + if n ≤ b.limit.toNat then 1 else 0) := by
  intro S hS
  have hothers : ∀ j ∈ S.erase i, Passed T b w₀ w j := by
    intro j hj
    obtain ⟨hji, hjS⟩ := Finset.mem_erase.mp hj
    obtain ⟨hidle, q, k, hq, hk, hle⟩ := hS j hjS
    rw [Pool.next_of_ne w hji] at hk
    exact ⟨hidle, q, k, hq, hk, hle⟩
  have herase := hw _ hothers
  by_cases hi : i ∈ S
  · obtain ⟨-, q, k, hq, hk, hle⟩ := hS i hi
    rw [Pool.next_self, place_unique hq h.place, hn, Option.some.injEq] at hk
    subst hk
    rw [if_pos hle]
    rw [Finset.card_erase_of_mem hi] at herase
    omega
  · rw [Finset.erase_eq_of_notMem hi] at herase
    exact herase.trans (Nat.le_add_right _ _)

lemma Tally.beat (hb : Wanted T b) (hw : Tally T b w₀ w) (h : Beat T i w.shared (w.calls i) s l) :
    Tally T b w₀ (w.next i s l) := by
  have hnow := h.now_eq
  refine ⟨hw.inv.beat h, by rw [Pool.next_shared, hnow]; exact hw.now, fun hclosed => ?_, fun e he => ?_⟩
  · rw [Pool.next_shared] at hclosed
    rcases h.quiet_or_hit (hw.inv.shape i) hb.eq_of_key with hquiet | ⟨p, hhit⟩
    · rw [hquiet.count_eq hnow] at hclosed
      exact (hw.closed hclosed).quiet hquiet
    · rcases hw.inv.hit hb hhit hnow with ⟨-, -, hnew⟩ | ⟨c, d, -, -, hnew⟩
      · rw [hnew] at hclosed
        cases hclosed
      · rw [hnew] at hclosed
        cases hclosed
  · rw [Pool.next_shared] at he
    rcases h.quiet_or_hit (hw.inv.shape i) hb.eq_of_key with hquiet | ⟨p, hhit⟩
    · rw [hquiet.count_eq hnow] at he
      exact (hw.opened e he).imp (·.quiet hquiet) (.imp_left (·.quiet hquiet))
    · rcases hw.inv.hit hb hhit hnow with ⟨hbefore, hcount, hnew⟩ | ⟨c, d, hbefore, hcount, hnew⟩
      · obtain rfl := Option.some.inj (hnew.symm.trans he)
        refine .inr ⟨((hw.closed hbefore).hit hhit hcount).mono ?_, fun d hd => ?_⟩
        · show b.limit.toNat - 1 + _ ≤ b.limit.toNat - 1 + min 1 b.limit.toNat
          split_ifs <;> omega
        · obtain rfl := Option.some.inj hd
          exact Int.add_le_add_right hw.now _
      · obtain rfl := Option.some.inj (hnew.symm.trans he)
        have hc : c ≠ 0 := (hw.inv.window hb hbefore).1
        rcases hw.opened _ hbefore with hold | ⟨hsince, hd⟩
        · refine .inl ((hold.hit hhit hcount).mono ?_)
          show min c b.limit.toNat - 1 + _ ≤ min (c + 1) b.limit.toNat - 1
          split_ifs <;> omega
        · refine .inr ⟨(hsince.hit hhit hcount).mono ?_, hd⟩
          show b.limit.toNat - 1 + min c b.limit.toNat + _ ≤ b.limit.toNat - 1 + min (c + 1) b.limit.toNat
          split_ifs <;> omega

omit [DecidableEq ι] in
lemma Tally.later {d : ℕ} (hw : Tally T b w₀ w) (hshort : w.shared.now + d < w₀.shared.now + b.windowMs) :
    Tally T b w₀ ⟨{ w.shared with now := w.shared.now + d }, w.calls⟩ := by
  have hlater : w.shared.now ≤ w.shared.now + d := Int.le_add_of_nonneg_right (Int.natCast_nonneg d)
  refine ⟨hw.inv.later d, Int.le_trans hw.now hlater, fun hclosed => ?_, fun e he => ?_⟩
  · cases hbefore : w.shared.count b.key with
    | none => exact hw.closed hbefore
    | some e =>
        rcases hw.opened e hbefore with hold | ⟨-, hd⟩
        · exact hold.mono (by omega)
        · obtain ⟨hkey, -⟩ := Slot.found_eq_some.mp hbefore
          have hopen : Server.count { w.shared with now := w.shared.now + d } b.key = some e :=
            Slot.found_eq_some.mpr ⟨hkey, fun d' hd' => Int.lt_of_lt_of_le hshort (hd d' hd')⟩
          rw [hopen] at hclosed
          cases hclosed
  · exact hw.opened e (count_later he)

omit [DecidableEq ι] in
lemma Tally.atMost (hw : Tally T b w₀ w) : AtMost T b w₀ w (2 * b.limit.toNat - 1) := by
  cases hfound : w.shared.count b.key with
  | none => exact (hw.closed hfound).mono (by omega)
  | some e =>
      rcases hw.opened e hfound with hold | ⟨hsince, -⟩
      · exact hold.mono (by omega)
      · exact hsince.mono (by omega)

omit [DecidableEq ι] in
lemma tally_start (hw : Inv T w) : Tally T b w w := by
  have hnone : AtMost T b w w 0 := by
    intro S hS
    rw [Nat.le_zero, Finset.card_eq_zero, Finset.eq_empty_iff_forall_notMem]
    intro i hi
    obtain ⟨hidle, p, n, -, hn, -⟩ := hS i hi
    rw [hidle] at hn
    cases hn
  exact ⟨hw, Int.le_refl _, fun _ => hnone.mono (Nat.zero_le _), fun e _ => .inl (hnone.mono (Nat.zero_le _))⟩

lemma tally_run (hb : Wanted T b) (hw : Inv T w₀) (hrun : T.run.machine.run w₀ as = some w)
    (hshort : w.shared.now < w₀.shared.now + b.windowMs) : Tally T b w₀ w := by
  refine keeps_run (I := fun w => w.shared.now < w₀.shared.now + b.windowMs → Tally T b w₀ w) ?_ ?_ hrun
    (fun _ => tally_start hw) hshort
  · intro w i s l hw h hshort
    rw [Pool.next_shared, h.now_eq] at hshort
    exact (hw hshort).beat hb h
  · intro w d hw hshort
    have hlater : w.shared.now ≤ w.shared.now + d := Int.le_add_of_nonneg_right (Int.natCast_nonneg d)
    exact (hw (Int.lt_of_le_of_lt hlater hshort)).later hshort

omit [DecidableEq ι] in
lemma count_of_allowed (hw : Inv T w) (hi : w.calls i = .decided out) (hb : b ∈ T.wants i)
    (hallowed : (decide (T.wants i) out).allowed = true) :
    ∃ p n, (T.wants i)[p]? = some b ∧ (w.calls i).countAt p = some n ∧ n ≤ b.limit.toNat := by
  have hlen : out.length = (T.wants i).length := by
    have hshape := hw.shape i
    rw [hi] at hshape
    exact hshape
  obtain ⟨p, hp⟩ := List.mem_iff_getElem?.mp hb
  have hlt : p < out.length := hlen ▸ (List.getElem?_eq_some_iff.mp hp).1
  refine ⟨p, out[p].1, hp, ?_, ?_⟩
  · rw [hi, Call.countAt, List.getElem?_eq_getElem hlt]
    rfl
  · have hzip : (b, out[p]) ∈ (T.wants i).zip out := by
      refine List.mem_iff_getElem?.mpr ⟨p, ?_⟩
      rw [List.getElem?_zip_eq_some]
      exact ⟨hp, List.getElem?_eq_getElem hlt⟩
    exact allowed_iff.mp hallowed _ hzip

/-- **Twice the limit.**  On whatever nodes, and however their calls interleave and fail: of the requests that
come in a stretch of time that is shorter than a counter's window, and want the counter, fewer than twice the
limit are allowed by their counts. -/
theorem fewer_than_twice (hpast : T.run.machine.run (start now) as = some w₀)
    (hrun : T.run.machine.run w₀ bs = some w) (hshort : w.shared.now < w₀.shared.now + b.windowMs)
    (S : Finset ι) (hS : ∀ i ∈ S, b ∈ T.wants i ∧ w₀.calls i = .idle ∧
      (w.calls i).verdict (T.wants i) = some true) :
    S.card ≤ 2 * b.limit.toNat - 1 := by
  rcases S.eq_empty_or_nonempty with rfl | ⟨j, hj⟩
  · exact Nat.zero_le _
  · have htally := tally_run ⟨j, (hS j hj).1⟩ (inv_run hpast) hrun hshort
    refine htally.atMost S fun i hi => ?_
    obtain ⟨hwants, hidle, hverdict⟩ := hS i hi
    obtain ⟨out, hout, hallowed⟩ := Call.verdict_eq_some.mp hverdict
    exact ⟨hidle, count_of_allowed htally.inv hout hwants hallowed⟩

def door : Traffic (Fin 5) where
  limits := ⟨⟨true, 2⟩, fun _ => ⟨false, 60, 0, 0, 0, 0⟩, fun _ => 0⟩
  cluster := false
  deployment := ⟨[], fun _ => some "home"⟩
  region := fun _ => none
  request := fun _ => .hit none .flows (some "203.0.113.9")

def whole (i : Fin 5) : List (Pick (Fin 5) Delivery ℕ) :=
  [.call i .answered, .call i .answered, .call i .answered]

/-- One request, and after almost a minute three more: they are allowed, the last two in the next window. -/
theorem fewer_than_twice_door : ∃ w₀ w, door.run.machine.run (start 0) (whole 0 ++ [.env 59999]) = some w₀ ∧
    door.run.machine.run w₀ (whole 1 ++ [.env 1] ++ whole 2 ++ whole 3) = some w ∧
    (∀ i ∈ ({1, 2, 3} : Finset (Fin 5)), (w.calls i).verdict (door.wants i) = some true) ∧
    ({1, 2, 3} : Finset (Fin 5)).card ≤ 2 * (door.limits.want (.address "203.0.113.9")).limit.toNat - 1 := by
  have hruns : ∃ w₀, door.run.machine.run (start 0) (whole 0 ++ [.env 59999]) = some w₀ ∧
      ∃ w, door.run.machine.run w₀ (whole 1 ++ [.env 1] ++ whole 2 ++ whole 3) = some w ∧
        w.shared.now < w₀.shared.now + (60000 : ℕ) ∧
        ∀ i ∈ ({1, 2, 3} : Finset (Fin 5)), door.limits.want (.address "203.0.113.9") ∈ door.wants i ∧
          w₀.calls i = .idle ∧ (w.calls i).verdict (door.wants i) = some true :=
    ⟨_, rfl, _, rfl, by decide +kernel, by decide +kernel⟩
  obtain ⟨w₀, hpast, w, hrun, hshort, hS⟩ := hruns
  exact ⟨w₀, w, hpast, hrun, fun i hi => (hS i hi).2.2, fewer_than_twice hpast hrun hshort _ hS⟩

/-! ## Who was before -/

/-- Its counter has been added to, or never will be. -/
def Settled (T : Traffic ι) (b : Want) (w : Pool ι Server Call) (i : ι) : Prop :=
  ∀ p, (T.wants i)[p]? = some b → ¬ (w.calls i).Awaits p

/-- **Who the window has counted**, if it was opened after `w₀`: as many requests as it says, none of which was
over by then. -/
structure Queue (T : Traffic ι) (b : Want) (w₀ w : Pool ι Server Call) : Prop where
  inv : Inv T w
  ended : ∀ j, (w₀.calls j).ended = true → (w.calls j).ended = true
  counted : ∀ {c d}, w.shared.count b.key = some ⟨c, some d⟩ → w₀.shared.now + b.windowMs < d →
    ∃ S : Finset ι, S.card = c ∧ ∀ j ∈ S, b ∈ T.wants j ∧ (w₀.calls j).ended = false ∧ Settled T b w j

lemma Hit.settled_self {p : ℕ} (h : Hit T b i p w.shared (w.calls i) s l) : Settled T b (w.next i s l) i := by
  intro q hq
  rw [Pool.next_self, place_unique hq h.place]
  exact h.settled

lemma Queue.beat (hb : Wanted T b) (hw : Queue T b w₀ w) (h : Beat T i w.shared (w.calls i) s l) :
    Queue T b w₀ (w.next i s l) := by
  have hnow := h.now_eq
  have hself : (w₀.calls i).ended = false := by
    rw [Bool.eq_false_iff]
    intro hended
    have hbefore := hw.ended i hended
    rw [h.not_ended] at hbefore
    cases hbefore
  refine ⟨hw.inv.beat h, fun j hj => ?_, fun {c d} he hd => ?_⟩
  · have hji : j ≠ i := by
      rintro rfl
      rw [hself] at hj
      cases hj
    rw [Pool.next_of_ne w hji]
    exact hw.ended j hj
  · rw [Pool.next_shared] at he
    rcases h.quiet_or_hit (hw.inv.shape i) hb.eq_of_key with hquiet | ⟨p, hhit⟩
    · rw [hquiet.count_eq hnow] at he
      obtain ⟨S, hcard, hS⟩ := hw.counted he hd
      refine ⟨S, hcard, fun j hj => ⟨(hS j hj).1, (hS j hj).2.1, fun q hq => ?_⟩⟩
      by_cases hji : j = i
      · subst hji
        rw [Pool.next_self]
        exact hquiet.settled hq ((hS j hj).2.2 q hq)
      · rw [Pool.next_of_ne w hji]
        exact (hS j hj).2.2 q hq
    · have hmember : b ∈ T.wants i ∧ (w₀.calls i).ended = false ∧ Settled T b (w.next i s l) i :=
        ⟨List.mem_of_getElem? hhit.place, hself, hhit.settled_self⟩
      rcases hw.inv.hit hb hhit hnow with ⟨-, -, hnew⟩ | ⟨c', d', hbefore, -, hnew⟩
      · obtain ⟨rfl, -⟩ := Entry.mk.inj (Option.some.inj (hnew.symm.trans he))
        refine ⟨{i}, Finset.card_singleton i, fun j hj => ?_⟩
        obtain rfl := Finset.mem_singleton.mp hj
        exact hmember
      · obtain ⟨rfl, hd'⟩ := Entry.mk.inj (Option.some.inj (hnew.symm.trans he))
        obtain rfl := Option.some.inj hd'
        obtain ⟨S, hcard, hS⟩ := hw.counted hbefore hd
        have hi : i ∉ S := fun hi => (hS i hi).2.2 p hhit.place hhit.awaits
        refine ⟨insert i S, by rw [Finset.card_insert_of_notMem hi, hcard], fun j hj => ?_⟩
        rcases Finset.mem_insert.mp hj with rfl | hj
        · exact hmember
        · have hji : j ≠ i := fun hji => hi (hji ▸ hj)
          refine ⟨(hS j hj).1, (hS j hj).2.1, fun q hq => ?_⟩
          rw [Pool.next_of_ne w hji]
          exact (hS j hj).2.2 q hq

omit [DecidableEq ι] in
lemma Queue.later (hw : Queue T b w₀ w) (d : ℕ) :
    Queue T b w₀ ⟨{ w.shared with now := w.shared.now + d }, w.calls⟩ :=
  ⟨hw.inv.later d, hw.ended, fun he hd => hw.counted (count_later he) hd⟩

omit [DecidableEq ι] in
lemma queue_start (hb : Wanted T b) (hw : Inv T w) : Queue T b w w := by
  refine ⟨hw, fun _ => id, fun he hd => ?_⟩
  obtain ⟨-, d', hd', hle⟩ := hw.window hb he
  obtain rfl := Option.some.inj hd'
  exact absurd hd (Int.not_lt.mpr hle)

/-- **Who was before**: a request that had not begun at `v` was counted after others, one less than its count,
none of which was over at `w₀`. -/
structure Ranked (T : Traffic ι) (b : Want) (w₀ v w : Pool ι Server Call) : Prop where
  queue : Queue T b w₀ w
  now : v.shared.now ≤ w.shared.now
  before : ∀ {i p n}, v.calls i = .idle → (T.wants i)[p]? = some b → (w.calls i).countAt p = some n →
    ∃ S : Finset ι, i ∉ S ∧ S.card + 1 = n ∧
      ∀ j ∈ S, b ∈ T.wants j ∧ (w₀.calls j).ended = false ∧ w.calls j ≠ .idle

omit [DecidableEq ι] in
lemma Settled.ne_idle (h : Settled T b w i) (hb : b ∈ T.wants i) : w.calls i ≠ .idle := by
  obtain ⟨p, hp⟩ := List.mem_iff_getElem?.mp hb
  intro hidle
  exact h p hp (by rw [hidle]; trivial)

lemma begun_next {s : Server} {l : Call} (h : Beat T i w.shared (w.calls i) s l) (hj : w.calls j ≠ .idle) :
    (w.next i s l).calls j ≠ .idle := by
  intro hidle
  rcases Pool.next_cases hidle with ⟨-, hl⟩ | hother
  · exact h.ne_idle hl
  · exact hj hother

variable {v : Pool ι Server Call}

omit [DecidableEq ι] in
lemma Queue.begun {S : Finset ι} (hS : ∀ j ∈ S, b ∈ T.wants j ∧ (w₀.calls j).ended = false ∧ Settled T b w j) :
    ∀ j ∈ S, b ∈ T.wants j ∧ (w₀.calls j).ended = false ∧ w.calls j ≠ .idle :=
  fun j hj => ⟨(hS j hj).1, (hS j hj).2.1, (hS j hj).2.2.ne_idle (hS j hj).1⟩

lemma Ranked.beat (hb : Wanted T b) (hlong : w₀.shared.now + b.windowMs ≤ v.shared.now) (hw : Ranked T b w₀ v w)
    (h : Beat T i w.shared (w.calls i) s l) : Ranked T b w₀ v (w.next i s l) := by
  have hnow := h.now_eq
  refine ⟨hw.queue.beat hb h, by rw [Pool.next_shared, hnow]; exact hw.now, fun {m p n} hidle hp hn => ?_⟩
  have hkeep : (w.calls m).countAt p = some n → ∃ S : Finset ι, m ∉ S ∧ S.card + 1 = n ∧
      ∀ j ∈ S, b ∈ T.wants j ∧ (w₀.calls j).ended = false ∧ (w.next i s l).calls j ≠ .idle := by
    intro hn
    obtain ⟨S, hm, hcard, hS⟩ := hw.before hidle hp hn
    exact ⟨S, hm, hcard, fun j hj => ⟨(hS j hj).1, (hS j hj).2.1, begun_next h (hS j hj).2.2⟩⟩
  rcases Pool.next_read (f := Call.countAt p) hn with ⟨rfl, hself⟩ | hother
  · rcases h.quiet_or_hit (hw.queue.inv.shape m) hb.eq_of_key with hquiet | ⟨q, hhit⟩
    · exact hkeep (hquiet.count hp hself)
    · obtain rfl := place_unique hp hhit.place
      rcases hw.queue.inv.hit hb hhit hnow with ⟨-, hcount, -⟩ | ⟨c, d, hbefore, hcount, -⟩
      · obtain rfl := Option.some.inj (hcount.symm.trans hself)
        exact ⟨∅, Finset.notMem_empty m, rfl, fun j hj => absurd hj (Finset.notMem_empty j)⟩
      · obtain rfl := Option.some.inj (hcount.symm.trans hself)
        have hopen : w.shared.now < d := (Slot.found_eq_some.mp hbefore).2 d rfl
        obtain ⟨S, hcard, hS⟩ := hw.queue.counted hbefore (Int.lt_of_le_of_lt (Int.le_trans hlong hw.now) hopen)
        refine ⟨S, fun hm => (hS m hm).2.2 p hp hhit.awaits, by rw [hcard], fun j hj => ?_⟩
        obtain ⟨hwants, hended, hbegun⟩ := Queue.begun hS j hj
        exact ⟨hwants, hended, begun_next h hbegun⟩
  · exact hkeep hother

omit [DecidableEq ι] in
lemma Ranked.later (hw : Ranked T b w₀ v w) (d : ℕ) :
    Ranked T b w₀ v ⟨{ w.shared with now := w.shared.now + d }, w.calls⟩ :=
  ⟨hw.queue.later d, Int.le_trans hw.now (Int.le_add_of_nonneg_right (Int.natCast_nonneg d)), hw.before⟩

lemma ranked_run (hb : Wanted T b) (hw₀ : Inv T w₀) (hlong : w₀.shared.now + b.windowMs ≤ v.shared.now)
    (hwait : T.run.machine.run w₀ bs = some v) (hrun : T.run.machine.run v cs = some w) : Ranked T b w₀ v w := by
  have hqueue : Queue T b w₀ v := keeps_run (fun hw h => hw.beat hb h) (fun hw => hw.later _) hwait
    (queue_start hb hw₀)
  refine keeps_run (fun hw h => hw.beat hb hlong h) (fun hw => hw.later _) hrun
    ⟨hqueue, Int.le_refl _, fun hidle _ hn => ?_⟩
  rw [hidle] at hn
  cases hn

/-- **Refused after the limit.**  If a request is refused, then for some counter that it wants as many others as
the limit allows have been sent, and none of them was over a window before the request came. -/
theorem refused_after_limit (hpast : T.run.machine.run (start now) as = some w₀)
    (hwait : T.run.machine.run w₀ bs = some v) (hrun : T.run.machine.run v cs = some w)
    (hidle : v.calls i = .idle) (hlong : ∀ b ∈ T.wants i, w₀.shared.now + b.windowMs ≤ v.shared.now)
    (hrefused : (w.calls i).verdict (T.wants i) = some false) :
    ∃ b ∈ T.wants i, ∃ S : Finset ι, i ∉ S ∧ b.limit.toNat ≤ S.card ∧
      ∀ j ∈ S, b ∈ T.wants j ∧ (w₀.calls j).ended = false ∧ w.calls j ≠ .idle := by
  obtain ⟨out, hi, hdecided⟩ := Call.verdict_eq_some.mp hrefused
  obtain ⟨⟨b, r⟩, hzip, hexceeded⟩ := exceeded_of_refused hdecided
  obtain ⟨p, hp⟩ := List.mem_iff_getElem?.mp hzip
  obtain ⟨hplace, hout⟩ := List.getElem?_zip_eq_some.mp hp
  have hwants : b ∈ T.wants i := List.mem_of_getElem? hplace
  have hranked := ranked_run ⟨i, hwants⟩ (inv_run hpast) (hlong b hwants) hwait hrun
  have hcount : (w.calls i).countAt p = some r.1 := by
    rw [hi, Call.countAt, hout]
    rfl
  obtain ⟨S, hiS, hcard, hS⟩ := hranked.before hidle hplace hcount
  refine ⟨b, hwants, S, hiS, ?_, hS⟩
  have hlt : b.limit.toNat < r.1 := hexceeded
  omega

/-- The third request in a minute is refused, after two others. -/
theorem refused_after_two : ∃ w, door.run.machine.run (start 0) [.env 60000] = some w ∧
    ∃ v, door.run.machine.run w (whole 0 ++ whole 1 ++ whole 2) = some v ∧
      ∃ b ∈ door.wants 2, ∃ S : Finset (Fin 5), 2 ∉ S ∧ b.limit.toNat ≤ S.card ∧
        ∀ j ∈ S, b ∈ door.wants j ∧ v.calls j ≠ .idle := by
  have hruns : ∃ w₀, door.run.machine.run (start 0) [] = some w₀ ∧
      ∃ w, door.run.machine.run w₀ [.env 60000] = some w ∧
        (∀ b ∈ door.wants 2, w₀.shared.now + b.windowMs ≤ w.shared.now) ∧ w.calls 2 = .idle ∧
        ∃ v, door.run.machine.run w (whole 0 ++ whole 1 ++ whole 2) = some v ∧
          (v.calls 2).verdict (door.wants 2) = some false :=
    ⟨_, rfl, _, rfl, by decide +kernel, rfl, _, rfl, by decide +kernel⟩
  obtain ⟨w₀, hpast, w, hwait, hlong, hidle, v, hrun, hrefused⟩ := hruns
  obtain ⟨b, hb, S, hi, hcard, hS⟩ := refused_after_limit hpast hwait hrun hidle hlong hrefused
  obtain rfl := Option.some.inj hpast
  exact ⟨w, hwait, v, hrun, b, hb, S, hi, hcard, fun j hj => ⟨(hS j hj).1, (hS j hj).2.2⟩⟩

end Ridm.RateLimits
