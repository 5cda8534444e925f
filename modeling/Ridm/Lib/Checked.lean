import Ridm.Lib.FrontReader

/-!
# Slices that are checked and loops that end

A program that slices or indexes outside a list does not go on, and one whose loop does not end gives
nothing.  `Fault.outOfRange` and `Fault.endless` are these ends, apart from the errors that the program
returns, and `Returns x` says that a computation has neither: it gives a value or returns an error.

* `Returns.bind` — one computation after another.
* `whileLoop_spec` — a loop with an invariant and a measure that every turn lowers gives a value, if it is
  given as many turns as the measure says.
* `SafeReader.bind`, `SafeReader.times` — the same of readers from the front.
-/

/-- How a computation ends that gives no value. -/
inductive Fault (ε : Type)
  | outOfRange
  | endless
  | error (e : ε)
  deriving DecidableEq

/-- A result, an error or a panic. -/
abbrev Checked (ε α : Type) := Except (Fault ε) α

namespace Checked

variable {ε α β γ σ : Type} {l : List β} {a b i n : ℕ}

/-- An error returned. -/
def fail (e : ε) : Checked ε α := .error (.error e)

/-- `l[i]`. -/
def index (l : List β) (i : ℕ) : Checked ε β :=
  match l[i]? with
  | some b => .ok b
  | none => .error .outOfRange

/-- `l[a..b]`. -/
def slice (l : List β) (a b : ℕ) : Checked ε (List β) :=
  if a ≤ b ∧ b ≤ l.length then .ok ((l.take b).drop a) else .error .outOfRange

/-- `l.split_at(n)`. -/
def splitAt (l : List β) (n : ℕ) : Checked ε (List β × List β) :=
  if n ≤ l.length then .ok (l.take n, l.drop n) else .error .outOfRange

/-- `while cond { body }`, for so many turns at most. -/
def whileLoop (cond : σ → Bool) (body : σ → Checked ε σ) : ℕ → σ → Checked ε σ
  | 0, s => if cond s then .error .endless else .ok s
  | turns + 1, s => if cond s then body s >>= whileLoop cond body turns else .ok s

/-- The computation gives a value or returns an error. -/
def Returns (x : Checked ε α) : Prop := ∀ f, x = .error f → ∃ e, f = .error e

/-! ## With the bounds right -/

lemma index_eq (h : i < l.length) : (index l i : Checked ε β) = .ok l[i] := by
  rw [index, List.getElem?_eq_getElem h]

lemma slice_eq (hab : a ≤ b) (hb : b ≤ l.length) :
    (slice l a b : Checked ε (List β)) = .ok ((l.take b).drop a) := if_pos ⟨hab, hb⟩

lemma slice_to (h : n ≤ l.length) : (slice l 0 n : Checked ε (List β)) = .ok (l.take n) :=
  slice_eq (Nat.zero_le n) h

lemma slice_from (h : n ≤ l.length) : (slice l n l.length : Checked ε (List β)) = .ok (l.drop n) := by
  rw [slice_eq h (Nat.le_refl _), List.take_length]

lemma splitAt_eq (h : n ≤ l.length) : (splitAt l n : Checked ε _) = .ok (l.take n, l.drop n) := if_pos h

/-- **A loop that ends.**  The body keeps the invariant and lowers the measure. -/
theorem whileLoop_spec {cond : σ → Bool} {body : σ → Checked ε σ} {I : σ → Prop} {m : σ → ℕ}
    (hbody : ∀ s, I s → cond s → ∃ s', body s = .ok s' ∧ I s' ∧ m s' < m s) :
    ∀ turns s, I s → m s ≤ turns → ∃ s', whileLoop cond body turns s = .ok s' ∧ I s' ∧ cond s' = false
  | 0, s, hI, hm => by
      cases hcond : cond s with
      | false => exact ⟨s, by simp [whileLoop, hcond], hI, hcond⟩
      | true =>
          obtain ⟨s', -, -, hlt⟩ := hbody s hI hcond
          omega
  | turns + 1, s, hI, hm => by
      cases hcond : cond s with
      | false => exact ⟨s, by simp [whileLoop, hcond], hI, hcond⟩
      | true =>
          obtain ⟨s', hs', hI', hlt⟩ := hbody s hI hcond
          obtain ⟨t, ht, hIt, hend⟩ := whileLoop_spec hbody turns s' hI' (by omega)
          refine ⟨t, ?_, hIt, hend⟩
          rw [whileLoop, if_pos hcond, hs']
          exact ht

/-! ## Computations that return -/

lemma Returns.ok (a : α) : Returns (.ok a : Checked ε α) := fun _ h => nomatch h

lemma Returns.error (e : ε) : Returns (.error (.error e) : Checked ε α) :=
  fun _ h => ⟨e, (Except.error.inj h).symm⟩

variable {r : FrontReader (Fault ε) β α} {x : Checked ε α}

lemma Returns.of_eq_ok {a : α} (h : x = .ok a) : Returns x := h ▸ Returns.ok a

lemma returns_error_iff {f : Fault ε} : Returns (.error f : Checked ε α) ↔ ∃ e, f = .error e :=
  ⟨fun h => h f rfl, fun ⟨e, he⟩ => he ▸ Returns.error e⟩

lemma Returns.bind {f : α → Checked ε γ} (hx : Returns x)
    (hf : ∀ a, x = .ok a → Returns (f a)) : Returns (x >>= f) := by
  cases x with
  | ok a => exact hf a rfl
  | error e => exact returns_error_iff.mpr (returns_error_iff.mp hx)

lemma returns_slice (hab : a ≤ b) (hb : b ≤ l.length) : Returns (slice l a b : Checked ε (List β)) :=
  .of_eq_ok (slice_eq hab hb)

/-! ## Readers that return -/

/-- The reader returns on every list. -/
def SafeReader (r : FrontReader (Fault ε) β α) : Prop := ∀ l, Returns (r l)

lemma SafeReader.pure (a : α) : SafeReader (pure a : FrontReader (Fault ε) β α) := fun l => .ok (a, l)

lemma SafeReader.bind {f : α → FrontReader (Fault ε) β γ}
    (hr : SafeReader r) (hf : ∀ a, SafeReader (f a)) : SafeReader (r >>= f) := fun l =>
  (hr l).bind fun p _ => hf p.1 p.2

lemma SafeReader.lift (h : Returns x) : SafeReader (liftM x : FrontReader (Fault ε) β α) :=
  fun l => h.bind fun a _ => .ok (a, l)

lemma SafeReader.take (e : ε) (n : ℕ) :
    SafeReader (FrontReader.take (.error e) n : FrontReader (Fault ε) β (List β)) := by
  intro l
  rw [FrontReader.take]
  split_ifs
  · exact .ok _
  · exact .error e

lemma SafeReader.times (hr : SafeReader r) :
    ∀ n, SafeReader (FrontReader.times r n)
  | 0 => .pure []
  | n + 1 => hr.bind fun _ => (SafeReader.times hr n).bind fun _ => .pure _

end Checked
