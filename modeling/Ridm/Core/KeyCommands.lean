import Ridm.Core.Valkey

/-!
# Commands that read the clock

A key whose lifetime is over is not there for any command, whether the server has dropped it by then or
not.  The commands here, and the scripts made of them, run at an instant of the server's own clock, in
milliseconds, and `found` is what they find.

A script is atomic, and the clock stands still in it.
-/

namespace Ridm

/-- What becomes of a command: it does not reach the server, its answer is lost, or it is answered. -/
inductive Delivery
  | unsent
  | unanswered
  | answered

namespace Slot

variable {α : Type}

/-- What a command finds under a key. -/
def found (k : Slot α) (now : Instant) : Slot α := if k.lapsed now then none else k

/-- `SET key value NX PX ttl`. -/
def setNx (k : Slot α) (v : α) (ttl : ℕ) (now : Instant) : Bool × Slot α :=
  match k.found now with
  | none => (true, setUntil v (now + ttl))
  | some e => (false, some e)

/-- `PEXPIRE key ttl`. -/
def pexpire (k : Slot α) (ttl : ℕ) (now : Instant) : Slot α :=
  k.map fun e => { e with deadline := some (now + ttl) }

/-- `PTTL key`: `-1` of a key without a lifetime, `-2` of one that is missing. -/
def pttl (k : Slot α) (now : Instant) : ℤ :=
  match k with
  | none => -2
  | some e => e.deadline.elim (-1) (· - now)

/-- `INCR key`, of a key that holds a count. -/
def incr (k : Slot ℕ) : ℕ × Slot ℕ :=
  match k with
  | none => (1, some ⟨1, none⟩)
  | some e => (e.value + 1, some { e with value := e.value + 1 })

/-- The script `if redis.call('GET', key) == v then return redis.call('PEXPIRE', key, ttl) else return 0 end`. -/
def compareExpire [DecidableEq α] (k : Slot α) (v : α) (ttl : ℕ) (now : Instant) : Bool × Slot α :=
  if (k.found now).get = some v then (true, (k.found now).pexpire ttl now) else (false, k.found now)

/-- The script `if redis.call('GET', key) == v then return redis.call('DEL', key) else return 0 end`. -/
def compareDel [DecidableEq α] (k : Slot α) (v : α) (now : Instant) : Bool × Slot α :=
  if (k.found now).get = some v then (true, (k.found now).del) else (false, k.found now)

variable {k : Slot α} {v : α} {e : Entry α} {ttl : ℕ} {now now' : Instant}

lemma found_eq_some : k.found now = some e ↔ k = some e ∧ ∀ d ∈ e.deadline, now < d := by
  rcases k with _ | ⟨v', _ | d⟩
  · simp [found]
  · simp only [found, lapsed, Option.bind_some, Option.elim_none, Bool.false_eq_true, if_false, iff_self_and]
    rintro h d hd
    obtain rfl := Option.some.inj h
    cases hd
  · simp only [found, lapsed, Option.bind_some, Option.elim_some, decide_eq_true_eq]
    split_ifs with hle
    · simp only [Option.some.injEq, false_iff, not_and, not_forall]
      rintro rfl
      exact ⟨d, rfl, Int.not_lt.mpr hle⟩
    · simp only [iff_self_and]
      rintro h d' hd'
      obtain rfl := Option.some.inj h
      obtain rfl := Option.some.inj hd'
      exact Int.not_le.mp hle

lemma found_of_le (h : k.found now' = some e) (hle : now ≤ now') : k.found now = some e := by
  obtain ⟨rfl, hlt⟩ := found_eq_some.mp h
  exact found_eq_some.mpr ⟨rfl, fun d hd => Int.lt_of_le_of_lt hle (hlt d hd)⟩

@[simp] lemma found_found : (k.found now).found now = k.found now := by
  cases h : k.found now with
  | none => rfl
  | some e => exact found_eq_some.mpr ⟨rfl, (found_eq_some.mp h).2⟩

lemma get_eq_some : k.get = some v ↔ ∃ d, k = some ⟨v, d⟩ := by
  cases k with
  | none => simp [Slot.get]
  | some e =>
      rcases e with ⟨v', d⟩
      simp [Slot.get]

end Slot

end Ridm
