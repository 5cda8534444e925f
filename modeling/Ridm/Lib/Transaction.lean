import Mathlib.Tactic.Common

/-!
# Transactions

A transaction reads and writes a copy of what is stored.  Only a commit makes the copy what is stored; a
transaction that ends without one, in an error or not, has changed nothing.

`Ends` says how a computation ends from where it starts; its rules take a computation apart statement by
statement.
-/

/-- What is stored, and what the open transaction has made of it. -/
structure Work (σ : Type) where
  stored : σ
  working : σ

/-- A computation within a transaction, which may end in an error. -/
abbrev Tx (σ ε : Type) := ExceptT ε (StateM (Work σ))

namespace Tx

variable {σ ε α β : Type}

/-- What the transaction sees. -/
def read : Tx σ ε σ := do return (← get).working

def write (f : σ → σ) : Tx σ ε Unit := modify fun w => { w with working := f w.working }

def commit : Tx σ ε Unit := modify fun w => { w with stored := w.working }

/-- A statement that may fail. -/
def attempt (fault : Option ε) : Tx σ ε Unit :=
  match fault with
  | some e => throw e
  | none => pure ()

/-- A transaction from its beginning, with what it leaves stored. -/
def perform (m : Tx σ ε α) (s : σ) : σ × Except ε α :=
  let r := m.run.run ⟨s, s⟩
  (r.2.stored, r.1)

/-- From `w` the computation ends as `Q` says. -/
def Ends (w : Work σ) (m : Tx σ ε α) (Q : Work σ → Except ε α → Prop) : Prop :=
  Q (m.run.run w).2 (m.run.run w).1

variable {w : Work σ} {Q : Work σ → Except ε α → Prop}

lemma ends_pure (a : α) : Ends w (pure a : Tx σ ε α) Q ↔ Q w (.ok a) := Iff.rfl

lemma ends_throw (e : ε) : Ends w (throw e : Tx σ ε α) Q ↔ Q w (.error e) := Iff.rfl

lemma ends_bind (m : Tx σ ε β) (f : β → Tx σ ε α) : Ends w (m >>= f) Q ↔
    Ends w m fun w' r => match r with
      | .ok b => Ends w' (f b) Q
      | .error e => Q w' (.error e) := by
  rcases h : m.run.run w with ⟨r, w'⟩
  have hrun : (m >>= f).run.run w = (ExceptT.bindCont f r).run w' := by
    show (m.run.run w >>= fun p => (ExceptT.bindCont f p.1).run p.2) = _
    rw [h]
    rfl
  unfold Ends
  rw [hrun, h]
  cases r with
  | ok b => exact Iff.rfl
  | error e => exact Iff.rfl

lemma ends_read (f : σ → Tx σ ε α) : Ends w (read >>= f) Q ↔ Ends w (f w.working) Q :=
  (ends_bind read f).trans Iff.rfl

lemma ends_write (g : σ → σ) (f : Unit → Tx σ ε α) :
    Ends w (write g >>= f) Q ↔ Ends ⟨w.stored, g w.working⟩ (f ()) Q :=
  (ends_bind (write g) f).trans Iff.rfl

lemma ends_commit (f : Unit → Tx σ ε α) :
    Ends w (commit >>= f) Q ↔ Ends ⟨w.working, w.working⟩ (f ()) Q :=
  (ends_bind commit f).trans Iff.rfl

lemma ends_attempt (fault : Option ε) (f : Unit → Tx σ ε α) : Ends w (attempt fault >>= f) Q ↔
    (∀ e, fault = some e → Q w (.error e)) ∧ (fault = none → Ends w (f ()) Q) := by
  rw [ends_bind]
  cases fault with
  | some e =>
      refine ⟨fun h => ⟨fun e' he => ?_, fun h => (by cases h)⟩, fun h => h.1 e rfl⟩
      cases he
      exact h
  | none => exact ⟨fun h => ⟨fun e he => (by cases he), fun _ => h⟩, fun h => h.2 rfl⟩

lemma perform_of_ends {m : Tx σ ε α} {s : σ} {Q : σ → Except ε α → Prop}
    (h : Ends ⟨s, s⟩ m fun w r => Q w.stored r) : Q (perform m s).1 (perform m s).2 := h

end Tx
