import Ridm.Audit.Model
import Ridm.Roles.Directory

/-!
# Prompt webhook delivery

`dispatch_many` and `deliver_promptly` of `api/src/services/webhooks.rs`, over one tenant.  A dispatch
commits its deliveries and then starts a pass of its own: it takes the tenant's lock with `SET NX`,
claims and sends until a claim finds nothing, and deletes the lock.  A pass that finds the lock taken
leaves its rows to the one that holds it.

Attempts succeed and no pass outlives the lock here, so what is left waiting is left by the order of
the steps alone.  The holder's last claim may be behind it: rows committed between that claim and the
`DEL` are nobody's.  `prompt_delivery_iff` gives the exact condition, `wake_up_lost` the run.
-/

namespace Ridm.Webhooks

open Audit (Event sampleEvent)
open Roles (stripSuffix)

/-! ## The queue -/

/-- `Webhook`: what dispatch reads of it. -/
structure Webhook where
  id : Uuid128
  events : List String
  maxAttempts : ℕ

/-- `Webhook::wants`: does this webhook want `eventName`? -/
def Webhook.wants (w : Webhook) (eventName : String) : Bool :=
  w.events.any fun p =>
    if p = "*" then true
    else
      match (stripSuffix p ".*").or (stripSuffix p "*") with
      | some start => start.toList.isPrefixOf eventName.toList
      | none => p = eventName

/-- The life of a delivery. -/
inductive DeliveryStatus
  | pending
  | sending
  | failed
  | delivered
  | dead
  deriving DecidableEq

/-- A row of `webhook_deliveries`. -/
structure Delivery where
  id : Uuid128
  webhookId : Uuid128
  eventId : Uuid128
  eventName : String
  maxAttempts : ℕ
  status : DeliveryStatus
  attempts : ℕ
  nextAttemptAt : Instant

/-- `status IN ('pending', 'failed')`. -/
def Delivery.waiting (d : Delivery) : Bool := d.status = .pending ∨ d.status = .failed

/-- One tenant's queue, its prompt lock, and the database's clock. -/
structure Queue where
  now : Instant
  rows : List Delivery
  locked : Bool

namespace Queue

def due (q : Queue) (d : Delivery) : Bool := d.waiting && d.nextAttemptAt ≤ q.now

/-- `enqueue_many`: the rows come in pending, to be sent at once. -/
def enqueueMany (q : Queue) (rows : List Delivery) : Queue :=
  { q with rows := q.rows ++ rows.map fun d =>
      { d with status := .pending, attempts := 0, nextAttemptAt := q.now } }

/-- The deliveries `claim_due` takes: those due the longest, up to `limit`. -/
def claimed (q : Queue) (limit : ℕ) : List Uuid128 :=
  (((q.rows.filter q.due).insertionSort fun a b => a.nextAttemptAt ≤ b.nextAttemptAt).take limit).map
    (·.id)

def claimDue (q : Queue) (limit : ℕ) : Queue :=
  { q with rows := q.rows.map fun d =>
      if d.id ∈ q.claimed limit then { d with status := .sending, nextAttemptAt := q.now } else d }

/-- `mark_delivered`, of every delivery of a claim. -/
def markDelivered (q : Queue) (ids : List Uuid128) : Queue :=
  { q with rows := q.rows.map fun d =>
      if d.id ∈ ids then { d with status := .delivered, attempts := d.attempts + 1 } else d }

end Queue

/-! ## Dispatch and pass -/

def promptBatch : ℕ := 50

/-- What is dispatched: the enabled webhooks as the node has them cached, the events, and the ids the
deliveries get. -/
structure Dispatch where
  hooks : List Webhook
  events : List Event
  newId : ℕ → Uuid128

/-- The rows `dispatch_many` queues.  A dead letter's own event never becomes a delivery. -/
def Dispatch.rows (d : Dispatch) : List Delivery :=
  ((d.events.filter (·.name ≠ "webhook.delivery_dead")).flatMap fun event =>
    (d.hooks.filter (·.wants event.name)).map fun w => (w, event)).mapIdx fun k (w, event) =>
      { id := d.newId k
        webhookId := w.id
        eventId := event.id
        eventName := event.name
        maxAttempts := w.maxAttempts
        status := .pending
        attempts := 0
        nextAttemptAt := 0 }

/-- Where a dispatch and its `deliver_promptly` stand. -/
inductive PromptCall
  | start (d : Dispatch)
  | committed
  | draining
  | sending (ids : List Uuid128)
  | releasing
  | finished

/-- One step of a dispatch and its pass. -/
def promptStep (q : Queue) : PromptCall → Option (Queue × PromptCall)
  | .start d =>
      match d.rows with
      | [] => some (q, .finished)
      | rows => some (q.enqueueMany rows, .committed)
  | .committed =>
      if q.locked then some (q, .finished) else some ({ q with locked := true }, .draining)
  | .draining =>
      match q.claimed promptBatch with
      | [] => some (q, .releasing)
      | ids => some (q.claimDue promptBatch, .sending ids)
  | .sending ids => some (q.markDelivered ids, .draining)
  | .releasing => some ({ q with locked := false }, .finished)
  | .finished => none

/-- Any number of dispatches of one tenant.  The surroundings are the clock. -/
def promptCalls (ι : Type*) : Calls ι Queue PromptCall Unit ℕ where
  act _ q l _ := promptStep q l
  env q passed := some { q with now := q.now + passed }

/-- A call has not begun or is over. -/
def PromptCall.atRest : PromptCall → Bool
  | .start _ | .finished => true
  | _ => false

def PromptCall.holds : PromptCall → Bool
  | .draining | .sending _ | .releasing => true
  | _ => false

lemma atRest_of_holds {l : PromptCall} (h : l.holds = true) : l.atRest = false := by
  cases l with
  | draining | sending _ | releasing => rfl
  | start _ | committed | finished => cases h

lemma PromptCall.cases_of (l : PromptCall) : l.atRest = true ∨ l = .committed ∨ l.holds = true := by
  cases l with
  | start _ | finished => exact Or.inl rfl
  | committed => exact Or.inr (Or.inl rfl)
  | draining | sending _ | releasing => exact Or.inr (Or.inr rfl)

/-- Nobody has begun. -/
def promptStart {ι : Type*} (now : Instant) (rows : List Delivery) (dispatch : ι → Dispatch) :
    Pool ι Queue PromptCall :=
  ⟨⟨now, rows, false⟩, fun i => .start (dispatch i)⟩

/-- No due delivery is left waiting once nobody is at work. -/
def NoneLeft {ι : Type*} (w : Pool ι Queue PromptCall) : Prop :=
  (∀ i, (w.calls i).atRest = true) → ∀ d ∈ w.shared.rows, w.shared.due d = false

/-- The lock is deleted only while no delivery is due, or while another dispatch has committed and is
still to try it. -/
def ReleasesInTime {ι : Type*} (w : Pool ι Queue PromptCall) : Pick ι Unit ℕ → Prop
  | .call i _ =>
      w.calls i = .releasing → (∀ d ∈ w.shared.rows, w.shared.due d = false) ∨
        ∃ j, w.calls j = .committed
  | .env _ => True

instance (l : PromptCall) : Decidable (l = .releasing) :=
  match l with
  | .releasing => .isTrue rfl
  | .start _ | .committed | .draining | .sending _ | .finished => .isFalse nofun

instance (l : PromptCall) : Decidable (l = .committed) :=
  match l with
  | .committed => .isTrue rfl
  | .start _ | .draining | .sending _ | .releasing | .finished => .isFalse nofun

instance {ι : Type*} [Fintype ι] (w : Pool ι Queue PromptCall) (a : Pick ι Unit ℕ) :
    Decidable (ReleasesInTime w a) :=
  match a with
  | .call i _ => inferInstanceAs (Decidable (w.calls i = .releasing →
      (∀ d ∈ w.shared.rows, w.shared.due d = false) ∨ ∃ j, w.calls j = .committed))
  | .env _ => .isTrue trivial

/-! ## Steps -/

section Steps

variable {q : Queue}

lemma mem_enqueueMany {rows : List Delivery} {d : Delivery} (hd : d ∈ (q.enqueueMany rows).rows) :
    d ∈ q.rows ∨ d.nextAttemptAt = q.now := by
  rcases List.mem_append.mp hd with hd | hd
  · exact Or.inl hd
  · obtain ⟨d', -, rfl⟩ := List.mem_map.mp hd
    exact Or.inr rfl

lemma waiting_claimDue {limit : ℕ} {d : Delivery} (hd : d ∈ (q.claimDue limit).rows)
    (hwaiting : d.waiting = true) : d ∈ q.rows := by
  obtain ⟨d', hd', rfl⟩ := List.mem_map.mp hd
  split_ifs at hwaiting ⊢
  · simp [Delivery.waiting] at hwaiting
  · exact hd'

lemma waiting_markDelivered {ids : List Uuid128} {d : Delivery} (hd : d ∈ (q.markDelivered ids).rows)
    (hwaiting : d.waiting = true) : d ∈ q.rows := by
  obtain ⟨d', hd', rfl⟩ := List.mem_map.mp hd
  split_ifs at hwaiting ⊢
  · simp [Delivery.waiting] at hwaiting
  · exact hd'

/-- Every waiting delivery is due: nothing is put off. -/
def Queue.Prompt (q : Queue) : Prop := ∀ d ∈ q.rows, d.waiting = true → d.nextAttemptAt ≤ q.now

lemma Queue.Prompt.step (h : q.Prompt) {q' : Queue} {l l' : PromptCall}
    (hstep : promptStep q l = some (q', l')) : q'.Prompt := by
  cases l with
  | start d =>
      simp only [promptStep] at hstep
      split at hstep
      · cases hstep
        exact h
      · cases hstep
        intro d hd hwaiting
        rcases mem_enqueueMany hd with hd | hd
        · exact h d hd hwaiting
        · exact le_of_eq hd
  | committed =>
      simp only [promptStep] at hstep
      split_ifs at hstep <;> cases hstep <;> exact h
  | draining =>
      simp only [promptStep] at hstep
      split at hstep
      · cases hstep
        exact h
      · cases hstep
        exact fun d hd hwaiting => h d (waiting_claimDue hd hwaiting) hwaiting
  | sending ids =>
      cases hstep
      exact fun d hd hwaiting => h d (waiting_markDelivered hd hwaiting) hwaiting
  | releasing =>
      cases hstep
      exact h
  | finished => cases hstep

end Steps

section Runs

variable {ι : Type*} {w w' : Pool ι Queue PromptCall}

/-- The lock is there exactly while a call holds it, and one call at most does. -/
structure Locked (w : Pool ι Queue PromptCall) : Prop where
  prompt : w.shared.Prompt
  held : w.shared.locked = true → ∃ i, (w.calls i).holds = true
  locked : ∀ i, (w.calls i).holds = true → w.shared.locked = true
  one : ∀ i j, (w.calls i).holds = true → (w.calls j).holds = true → i = j

variable [DecidableEq ι]

lemma Locked.same (h : Locked w) {i : ι} {q : Queue} {l : PromptCall} (hprompt : q.Prompt)
    (hlocked : q.locked = w.shared.locked) (hholds : l.holds = (w.calls i).holds) :
    Locked (w.next i q l) := by
  have hsame : ∀ j, ((w.next i q l).calls j).holds = (w.calls j).holds :=
    Pool.next_congr (f := PromptCall.holds) hholds
  refine ⟨hprompt, ?_, ?_, ?_⟩
  · intro hq
    obtain ⟨j, hj⟩ := h.held (hlocked.symm.trans hq)
    exact ⟨j, (hsame j).trans hj⟩
  · intro j hj
    exact hlocked.trans (h.locked j ((hsame j).symm.trans hj))
  · intro j k hj hk
    exact h.one j k ((hsame j).symm.trans hj) ((hsame k).symm.trans hk)

lemma Locked.take (h : Locked w) {i : ι} (hfree : w.shared.locked = false) :
    Locked (w.next i { w.shared with locked := true } .draining) := by
  have hnone : ∀ j, (w.calls j).holds = false := by
    intro j
    rw [← Bool.not_eq_true]
    intro hj
    rw [h.locked j hj] at hfree
    cases hfree
  have honly : ∀ j, ((w.next i { w.shared with locked := true } .draining).calls j).holds = true →
      j = i := fun j hj => Pool.next_only hnone hj
  refine ⟨h.prompt, fun _ => ⟨i, ?_⟩, fun _ _ => rfl, ?_⟩
  · rw [Pool.next_self]
    rfl
  · intro j k hj hk
    rw [honly j hj, honly k hk]

lemma Locked.release (h : Locked w) {i : ι} (hi : w.calls i = .releasing) :
    Locked (w.next i { w.shared with locked := false } .finished) := by
  have hnone : ∀ j, ((w.next i { w.shared with locked := false } .finished).calls j).holds = false :=
    Pool.next_none rfl fun j hj => h.one j i hj (by rw [hi]; rfl)
  refine ⟨h.prompt, fun hlocked => (by cases hlocked), ?_, ?_⟩
  · intro j hj
    rw [hnone j] at hj
    cases hj
  · intro j k hj _
    rw [hnone j] at hj
    cases hj

omit [DecidableEq ι] in
lemma noneLeft_of_working {i : ι} (hi : (w.calls i).atRest = false) : NoneLeft w := by
  intro hrest
  rw [hrest i] at hi
  cases hi

/-- **The lock is deleted**: nothing is left exactly when nothing was due, or another dispatch is on
its way to the lock. -/
lemma release_iff (h : Locked w) {i : ι} (hi : w.calls i = .releasing) (u : Unit) :
    NoneLeft (w.next i { w.shared with locked := false } .finished) ↔ ReleasesInTime w (.call i u) := by
  have hrest : (∀ j, (w.calls j) ≠ .committed) →
      ∀ j, ((w.next i { w.shared with locked := false } .finished).calls j).atRest = true := by
    intro hno
    refine Pool.next_forall (p := fun _ l => PromptCall.atRest l = true) rfl fun j hj => ?_
    rcases PromptCall.cases_of (w.calls j) with hrest | hcommitted | hholds
    · exact hrest
    · exact absurd hcommitted (hno j)
    · exact absurd (h.one j i hholds (by rw [hi]; rfl)) hj
  constructor
  · intro hnone _
    by_cases hj : ∃ j, w.calls j = .committed
    · exact Or.inr hj
    · exact Or.inl (hnone (hrest fun j hcommitted => hj ⟨j, hcommitted⟩))
  · intro hin hall
    rcases hin hi with hnone | ⟨j, hj⟩
    · exact hnone
    · have hji : j ≠ i := by
        rintro rfl
        rw [hi] at hj
        cases hj
      have := hall j
      rw [Pool.next_of_ne w hji, hj] at this
      cases this

/-- **One step.**  From a state in which nothing is left, something is left exactly by deleting the lock
too early. -/
lemma prompt_step {a : Pick ι Unit ℕ} (h : Locked w) (hnone : NoneLeft w)
    (hstep : (promptCalls ι).machine.step w a = some w') :
    Locked w' ∧ (NoneLeft w' ↔ ReleasesInTime w a) := by
  cases a with
  | env passed =>
      obtain ⟨q, henv, rfl⟩ := Calls.step_env.mp hstep
      cases henv
      refine ⟨⟨?_, h.held, h.locked, h.one⟩, iff_of_true ?_ trivial⟩
      · intro d hd hwaiting
        have := h.prompt d hd hwaiting
        have hle : w.shared.now ≤ w.shared.now + passed := Int.le_add_of_nonneg_right (Int.natCast_nonneg _)
        exact this.trans hle
      · intro hrest d hd
        have hnow := hnone hrest d hd
        rw [← Bool.not_eq_true] at hnow ⊢
        intro hdue
        have hwaiting : d.waiting = true := (Bool.and_eq_true_iff.mp hdue).1
        -- what waits was due before
        exact hnow (Bool.and_eq_true_iff.mpr ⟨hwaiting, decide_eq_true (h.prompt d hd hwaiting)⟩)
  | call i u =>
      obtain ⟨q, l, hact, rfl⟩ := Calls.step_call.mp hstep
      have hact' : promptStep w.shared (w.calls i) = some (q, l) := hact
      have hprompt : q.Prompt := h.prompt.step hact'
      have hworks : l.atRest = false → NoneLeft (w.next i q l) := by
        intro hl
        refine noneLeft_of_working (i := i) ?_
        rw [Pool.next_self]
        exact hl
      have hother : w.calls i ≠ .releasing → ReleasesInTime w (.call i u) :=
        fun hne hi => absurd hi hne
      cases hcall : w.calls i with
      | start d =>
          rw [hcall] at hact'
          have hin := hother (by rw [hcall]; simp)
          simp only [promptStep] at hact'
          split at hact'
          · cases hact'
            refine ⟨h.same hprompt rfl (by rw [hcall]; rfl), iff_of_true ?_ hin⟩
            intro hrest
            refine hnone fun j => ?_
            by_cases hj : j = i
            · rw [hj, hcall]
              rfl
            · have := hrest j
              rwa [Pool.next_of_ne w hj] at this
          · cases hact'
            exact ⟨h.same hprompt rfl (by rw [hcall]; rfl), iff_of_true (hworks rfl) hin⟩
      | committed =>
          rw [hcall] at hact'
          have hin := hother (by rw [hcall]; simp)
          simp only [promptStep] at hact'
          split_ifs at hact' with hlocked
          · cases hact'
            refine ⟨h.same hprompt rfl (by rw [hcall]; rfl), iff_of_true ?_ hin⟩
            -- the lock is held, and its holder is at work
            obtain ⟨j, hj⟩ := h.held hlocked
            have hji : j ≠ i := by
              rintro rfl
              rw [hcall] at hj
              cases hj
            refine noneLeft_of_working (i := j) ?_
            rw [Pool.next_of_ne w hji]
            exact atRest_of_holds hj
          · cases hact'
            exact ⟨h.take (Bool.eq_false_iff.mpr hlocked), iff_of_true (hworks rfl) hin⟩
      | draining =>
          rw [hcall] at hact'
          have hin := hother (by rw [hcall]; simp)
          simp only [promptStep] at hact'
          split at hact'
          · cases hact'
            exact ⟨h.same hprompt rfl (by rw [hcall]; rfl), iff_of_true (hworks rfl) hin⟩
          · cases hact'
            exact ⟨h.same hprompt rfl (by rw [hcall]; rfl), iff_of_true (hworks rfl) hin⟩
      | sending ids =>
          rw [hcall] at hact'
          have hin := hother (by rw [hcall]; simp)
          cases hact'
          exact ⟨h.same hprompt rfl (by rw [hcall]; rfl), iff_of_true (hworks rfl) hin⟩
      | releasing =>
          rw [hcall] at hact'
          cases hact'
          exact ⟨h.release hcall, release_iff h hcall u⟩
      | finished =>
          rw [hcall] at hact'
          cases hact'

omit [DecidableEq ι] in
lemma locked_start (now : Instant) {rows : List Delivery} (dispatch : ι → Dispatch)
    (hrows : ∀ d ∈ rows, d.waiting = false) :
    Locked (promptStart now rows dispatch) ∧ NoneLeft (promptStart now rows dispatch) := by
  refine ⟨⟨?_, fun hlocked => (by cases hlocked), fun i hi => (by cases hi), fun i _ hi _ => (by cases hi)⟩, ?_⟩
  · intro d hd hwaiting
    rw [hrows d hd] at hwaiting
    cases hwaiting
  · intro _ d hd
    rw [Queue.due, hrows d hd]
    rfl

/-- **No wake-up is lost** exactly as long as the lock is deleted only while no delivery is due, or while
another dispatch has committed and is still to try the lock: then nothing due is left waiting in any
state in which all dispatches are over (or have not begun). -/
theorem prompt_delivery_iff (now : Instant) (rows : List Delivery) (dispatch : ι → Dispatch)
    (hrows : ∀ d ∈ rows, d.waiting = false) (as : List (Pick ι Unit ℕ)) (w : Pool ι Queue PromptCall)
    (hrun : (promptCalls ι).machine.run (promptStart now rows dispatch) as = some w) :
    (∀ bs cs v, as = bs ++ cs →
        (promptCalls ι).machine.run (promptStart now rows dispatch) bs = some v → NoneLeft v) ↔
      (promptCalls ι).machine.Meets ReleasesInTime (promptStart now rows dispatch) as := by
  obtain ⟨hlocked, hnone⟩ := locked_start now dispatch hrows
  refine Machine.always_iff_meets (I := Locked) (G := NoneLeft) (A := fun _ => True) ?_
    (fun _ _ => trivial) hrun hlocked hnone
  intro s a s' _ hI hG hstep
  exact prompt_step hI hG hstep

end Runs

def sampleDispatch : Bool → Dispatch
  | false => ⟨[⟨1, ["*"], 8⟩], [sampleEvent 1], fun k => BitVec.ofNat 128 (100 + k)⟩
  | true => ⟨[⟨1, ["*"], 8⟩], [sampleEvent 2], fun k => BitVec.ofNat 128 (200 + k)⟩

def wholePass (b : Bool) : List (Pick Bool Unit ℕ) := List.replicate 6 (.call b ())

/-- One after the other, both deliveries go out. -/
theorem prompt_delivery_in_turn :
    ∃ w, (promptCalls Bool).machine.run (promptStart 0 [] sampleDispatch)
        (wholePass false ++ .env 5 :: wholePass true) = some w ∧
      w.shared.rows.map (·.status) = [.delivered, .delivered] ∧ NoneLeft w := by
  have hany : ((promptCalls Bool).machine.run (promptStart 0 [] sampleDispatch)
      (wholePass false ++ .env 5 :: wholePass true)).any
        (fun w => w.shared.rows.map (·.status) = [.delivered, .delivered]) = true := by decide +kernel
  obtain ⟨w, hrun, hrows⟩ := Machine.exists_run_of_any hany
  refine ⟨w, hrun, of_decide_eq_true hrows, ?_⟩
  exact (prompt_delivery_iff 0 [] sampleDispatch (fun _ hd => absurd hd List.not_mem_nil) _ w hrun).mpr
    (by decide +kernel) _ [] w (List.append_nil _).symm hrun

def lostWakeUp : List (Pick Bool Unit ℕ) :=
  List.replicate 5 (.call false ()) ++ [.call true (), .call true (), .call false ()]

/-- **A wake-up is lost**: both dispatches are over, and the second one's delivery is due and waits. -/
theorem wake_up_lost :
    ∃ w, (promptCalls Bool).machine.run (promptStart 0 [] sampleDispatch) lostWakeUp = some w ∧
      ¬ NoneLeft w := by
  have hany : ((promptCalls Bool).machine.run (promptStart 0 [] sampleDispatch) lostWakeUp).any
      (fun w => (w.calls false).atRest && (w.calls true).atRest && w.shared.rows.any w.shared.due) =
        true := by decide +kernel
  obtain ⟨w, hrun, hleft⟩ := Machine.exists_run_of_any hany
  rw [Bool.and_eq_true, Bool.and_eq_true, List.any_eq_true] at hleft
  obtain ⟨⟨hfalse, htrue⟩, d, hd, hdue⟩ := hleft
  refine ⟨w, hrun, fun hnone => ?_⟩
  have hrest : ∀ b, (w.calls b).atRest = true := by
    intro b
    cases b with
    | false => exact hfalse
    | true => exact htrue
  rw [hnone hrest d hd] at hdue
  cases hdue

end Ridm.Webhooks
