import Mathlib.Tactic.Common

/-!
# Reading from the front

A reader takes a value from the front of a list and leaves the rest, or fails.  Two properties of a reader
are what formats need.

* `Reads r w a` — from a word `w` the reader takes `a`, whatever follows the word.  This is what is proved of
  a writer, by the rules `Reads.pure`, `Reads.bind` and `Reads.times`, which follow the reader.
* `Cuts n r` — whatever the reader takes, it takes from a word of at least `n` letters that it would take it
  from whatever followed.  A reader that looks at what is left does not cut, unless what it does next takes
  as much as it has seen (`Cuts.within`).
-/

/-- A reader of letters `β`, with errors `ε`. -/
abbrev FrontReader (ε β α : Type) := StateT (List β) (Except ε) α

namespace FrontReader

variable {ε β α γ : Type}

/-- From the word the reader takes `a`, whatever follows. -/
def Reads (r : FrontReader ε β α) (w : List β) (a : α) : Prop := ∀ rest, r (w ++ rest) = .ok (a, rest)

/-- What the reader takes is in a word of `n` letters or more, whatever follows. -/
def Cuts (n : ℕ) (r : FrontReader ε β α) : Prop :=
  ∀ l a rest, r l = .ok (a, rest) → ∃ w, l = w ++ rest ∧ n ≤ w.length ∧ Reads r w a

/-- So many letters, or the error. -/
def take (e : ε) (n : ℕ) : FrontReader ε β (List β) := fun l =>
  if n ≤ l.length then .ok (l.take n, l.drop n) else .error e

def times (r : FrontReader ε β α) : ℕ → FrontReader ε β (List α)
  | 0 => pure []
  | n + 1 => do
      let a ← r
      let as ← times r n
      pure (a :: as)

/-- The number is not more than the letters that are left, or the error. -/
def within (e : ε) (n : ℕ) : FrontReader ε β Unit := fun l =>
  if n ≤ l.length then .ok ((), l) else .error e

/-- A reader with other errors. -/
def mapError {ε' : Type} (g : ε → ε') (r : FrontReader ε β α) : FrontReader ε' β α := fun l => (r l).mapError g

variable {r : FrontReader ε β α} {f : α → FrontReader ε β γ} {w w' l rest : List β} {a : α} {c : γ} {e : ε}
  {m n : ℕ}

/-! ## One reader after another -/

lemma bind_eq_ok : (r >>= f) l = .ok (c, rest) ↔ ∃ a mid, r l = .ok (a, mid) ∧ f a mid = .ok (c, rest) := by
  show ((r l).bind fun p => f p.1 p.2) = .ok (c, rest) ↔ _
  cases hr : r l with
  | error e => simp [Except.bind]
  | ok p =>
      obtain ⟨a, mid⟩ := p
      simp only [Except.bind, Except.ok.injEq, Prod.mk.injEq]
      constructor
      · exact fun h => ⟨a, mid, ⟨rfl, rfl⟩, h⟩
      · rintro ⟨a', mid', ⟨rfl, rfl⟩, h⟩
        exact h

lemma bind_of_ok {mid : List β} (h : r l = .ok (a, mid)) : (r >>= f) l = f a mid := by
  show ((r l).bind fun p => f p.1 p.2) = f a mid
  rw [h]
  rfl

lemma take_bind_congr {f g : List β → FrontReader ε β α} (h : ∀ b, b.length = n → f b = g b) :
    (take e n >>= f) = (take e n >>= g) := by
  funext l
  show ((take e n l).bind fun p => f p.1 p.2) = (take e n l).bind fun p => g p.1 p.2
  rw [take]
  split_ifs with hn
  · show f (l.take n) (l.drop n) = g (l.take n) (l.drop n)
    rw [h _ (List.length_take_of_le hn)]
  · rfl

/-! ## What is read from a word -/

lemma Reads.lift {x : Except ε α} (h : x = .ok a) : Reads (liftM x : FrontReader ε β α) [] a := by
  rw [h]
  exact fun _ => rfl

lemma Reads.pure (a : α) : Reads (pure a : FrontReader ε β α) [] a := fun _ => rfl

lemma Reads.bind (hr : Reads r w a) (hf : Reads (f a) w' c) : Reads (r >>= f) (w ++ w') c := by
  intro rest
  rw [List.append_assoc, bind_of_ok (hr _)]
  exact hf rest

lemma Reads.bind_nil (hr : Reads r [] a) (hf : Reads (f a) w c) : Reads (r >>= f) w c :=
  hr.bind hf

lemma Reads.bind_last (hr : Reads r w a) (hf : Reads (f a) [] c) : Reads (r >>= f) w c := by
  have h := hr.bind hf
  rwa [List.append_nil] at h

lemma Reads.bind_pure {g : α → γ} (hr : Reads r w a) :
    Reads (r >>= fun a => (Pure.pure (g a) : FrontReader ε β γ)) w (g a) :=
  hr.bind_last (Reads.pure (g a))

lemma reads_take (e : ε) (w : List β) : Reads (take e w.length) w w := by
  intro rest
  rw [take, if_pos (by simp), List.take_left, List.drop_left]

lemma Reads.times {as : List α} {ws : List (List β)} (h : List.Forall₂ (Reads r) ws as) :
    Reads (times r as.length) ws.flatten as := by
  induction h with
  | nil => exact Reads.pure []
  | cons hr _ ih => exact hr.bind (ih.bind_pure)

lemma Reads.within (e : ε) {r : FrontReader ε β α} (hr : Reads r w a) (hn : n ≤ w.length) :
    Reads (FrontReader.within e n >>= fun _ => r) w a := by
  intro rest
  have hle : n ≤ (w ++ rest).length := Nat.le_trans hn (by simp)
  have hok : FrontReader.within e n (w ++ rest) = .ok ((), w ++ rest) := if_pos hle
  rw [bind_of_ok hok]
  exact hr rest

/-! ## What is cut off -/

lemma Cuts.mono (h : Cuts n r) (hm : m ≤ n) : Cuts m r := by
  intro l a rest hr
  obtain ⟨w, hl, hn, hw⟩ := h l a rest hr
  exact ⟨w, hl, Nat.le_trans hm hn, hw⟩

lemma Cuts.pure (a : α) : Cuts 0 (pure a : FrontReader ε β α) := by
  intro l b rest h
  cases h
  exact ⟨[], rfl, Nat.le_refl 0, Reads.pure a⟩

lemma Cuts.throw (n : ℕ) (e : ε) : Cuts n (throw e : FrontReader ε β α) := by
  intro l b rest h
  cases h

lemma Cuts.bind (hr : Cuts m r) (hf : ∀ a, Cuts n (f a)) : Cuts (m + n) (r >>= f) := by
  intro l c rest h
  obtain ⟨a, mid, hra, hfa⟩ := bind_eq_ok.mp h
  obtain ⟨w, rfl, hw, hreads⟩ := hr _ _ _ hra
  obtain ⟨w', rfl, hw', hreads'⟩ := hf a _ _ _ hfa
  refine ⟨w ++ w', (List.append_assoc ..).symm, ?_, hreads.bind hreads'⟩
  rw [List.length_append]
  exact Nat.add_le_add hw hw'

lemma Cuts.bind_left (hr : Cuts n r) (hf : ∀ a, Cuts 0 (f a)) : Cuts n (r >>= f) :=
  hr.bind hf

lemma cuts_take (e : ε) (n : ℕ) : Cuts n (take e n : FrontReader ε β (List β)) := by
  intro l a rest h
  rw [take] at h
  split_ifs at h with hn
  cases h
  have hlen : (l.take n).length = n := List.length_take_of_le hn
  have hreads := reads_take e (l.take n)
  rw [hlen] at hreads
  exact ⟨l.take n, (List.take_append_drop n l).symm, Nat.le_of_eq hlen.symm, hreads⟩

lemma Cuts.times (hr : Cuts m r) : ∀ n, Cuts (n * m) (times r n)
  | 0 => (Cuts.pure []).mono (Nat.le_of_eq (Nat.zero_mul m))
  | n + 1 => by
      rw [Nat.succ_mul, Nat.add_comm]
      exact hr.bind fun a => (Cuts.times hr n).bind_left fun as => Cuts.pure _

lemma Cuts.le_length (hc : Cuts n r) (hr : Reads r w a) : n ≤ w.length := by
  obtain ⟨w', hw, hn, -⟩ := hc _ _ _ (hr [])
  rw [List.append_nil, List.append_nil] at hw
  rwa [hw]

lemma mapError_eq_ok {ε' : Type} {g : ε → ε'} :
    mapError g r l = .ok (a, rest) ↔ r l = .ok (a, rest) := by
  rw [mapError]
  cases r l with
  | error e => simp [Except.mapError]
  | ok p => simp [Except.mapError]

lemma Cuts.mapError {ε' : Type} (g : ε → ε') (hr : Cuts n r) : Cuts n (FrontReader.mapError g r) := by
  intro l a rest h
  obtain ⟨w, hl, hn, hreads⟩ := hr _ _ _ (mapError_eq_ok.mp h)
  exact ⟨w, hl, hn, fun rest' => mapError_eq_ok.mpr (hreads rest')⟩

/-- **A look at what is left.**  It does not matter where the next reader takes as much. -/
theorem Cuts.within (e : ε) (hr : Cuts n r) : Cuts n (FrontReader.within e n >>= fun _ => r) := by
  intro l a rest h
  obtain ⟨u, mid, hwithin, hra⟩ := bind_eq_ok.mp h
  rw [FrontReader.within] at hwithin
  split_ifs at hwithin
  cases hwithin
  obtain ⟨w, rfl, hn, hreads⟩ := hr _ _ _ hra
  exact ⟨w, rfl, hn, hreads.within e hn⟩

end FrontReader
