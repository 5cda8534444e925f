import Mathlib.Data.List.Dedup
import Mathlib.Data.Nat.Find
import Mathlib.Logic.Relation

/-!
# Paths and bounded search

`Steps r n a b`: a path of exactly `n` edges leads from `a` to `b`.  A relation is acyclic when nothing
reaches itself; one more edge keeps it so exactly when it closes no path (`acyclic_addEdge_iff`).

`searchDown` follows the edges level by level, as a recursive query does, for a fixed number of
levels; it finds what a path of at most so many edges leads to (`mem_searchDown`).

`Redirect` gives one element a single edge in place of all it had.  Where the new target does not lead
back to it, the paths that are new are those that come to it by old edges, take the new one and go on
by old edges (`steps_redirect_cases`, `Steps.redirect`).
-/

namespace Paths

open Relation

variable {α : Type*} {r : α → α → Prop} {a b c p : α} {n : ℕ}

/-- A path of exactly `n` edges. -/
def Steps (r : α → α → Prop) : ℕ → α → α → Prop
  | 0, a, b => a = b
  | n + 1, a, b => ∃ c, r a c ∧ Steps r n c b

/-- Nothing reaches itself. -/
def Acyclic (r : α → α → Prop) : Prop := ∀ a, ¬ TransGen r a a

/-- One more edge. -/
def AddEdge (r : α → α → Prop) (p c : α) : α → α → Prop := fun a b => r a b ∨ (a = p ∧ b = c)

lemma Acyclic.mono {r' : α → α → Prop} (h : Acyclic r) (hsub : ∀ a b, r' a b → r a b) : Acyclic r' :=
  fun a ha => h a (TransGen.mono hsub a a ha)

lemma transGen_addEdge (h : TransGen (AddEdge r p c) a b) :
    TransGen r a b ∨ (ReflTransGen r a p ∧ ReflTransGen r c b) := by
  induction h with
  | single hab =>
      rcases hab with hab | ⟨rfl, rfl⟩
      · exact .inl (.single hab)
      · exact .inr ⟨.refl, .refl⟩
  | tail _ hbd ih =>
      rcases hbd with hbd | ⟨rfl, rfl⟩
      · rcases ih with hab | ⟨hap, hcb⟩
        · exact .inl (hab.tail hbd)
        · exact .inr ⟨hap, hcb.tail hbd⟩
      · rcases ih with hap | ⟨hap, -⟩
        · exact .inr ⟨hap.to_reflTransGen, .refl⟩
        · exact .inr ⟨hap, .refl⟩

/-- **One more edge.**  An acyclic relation stays acyclic with an edge more exactly when the edge's
tail is not reached from its head. -/
theorem acyclic_addEdge_iff (h : Acyclic r) :
    Acyclic (AddEdge r p c) ↔ ¬ ReflTransGen r c p := by
  constructor
  · intro hadd hcp
    have hlift : ReflTransGen (AddEdge r p c) c p := ReflTransGen.mono (fun _ _ => Or.inl) c p hcp
    exact hadd p (.head' (.inr ⟨rfl, rfl⟩) hlift)
  · intro hcp a ha
    rcases transGen_addEdge ha with ha | ⟨hap, hca⟩
    · exact h a ha
    · exact hcp (hca.trans hap)

lemma Steps.end_of {p : α → Prop} (hnext : ∀ a b, r a b → p b) (h : Steps r n a b) (ha : p a) : p b := by
  induction n generalizing a with
  | zero =>
      rw [Steps] at h
      exact h ▸ ha
  | succ n ih =>
      obtain ⟨c, hac, hcb⟩ := h
      exact ih hcb (hnext a c hac)

lemma Steps.mono {r' : α → α → Prop} (h : Steps r n a b) (hsub : ∀ a b, r a b → r' a b) :
    Steps r' n a b := by
  induction n generalizing a with
  | zero => exact h
  | succ n ih =>
      obtain ⟨c, hac, hcb⟩ := h
      exact ⟨c, hsub a c hac, ih hcb⟩

lemma Steps.trans {m : ℕ} (hab : Steps r n a b) (hbc : Steps r m b c) : Steps r (n + m) a c := by
  induction n generalizing a with
  | zero =>
      rw [Steps] at hab
      rw [Nat.zero_add, hab]
      exact hbc
  | succ n ih =>
      obtain ⟨d, had, hdb⟩ := hab
      rw [Nat.add_right_comm]
      exact ⟨d, had, ih hdb⟩

lemma steps_addEdge (h : Steps (AddEdge r p c) n a b) : Steps r n a b ∨ ∃ j < n, Steps r j c b := by
  induction n generalizing a with
  | zero => exact .inl h
  | succ n ih =>
      obtain ⟨d, had, hdb⟩ := h
      rcases ih hdb with hold | ⟨j, hj, hcb⟩
      · rcases had with had | ⟨rfl, rfl⟩
        · exact .inl ⟨d, had, hold⟩
        · exact .inr ⟨n, Nat.lt_succ_self n, hold⟩
      · exact .inr ⟨j, Nat.lt_succ_of_lt hj, hcb⟩

section Redirect

/-- One element has a single edge in place of its own. -/
def Redirect (r : α → α → Prop) (g p : α) : α → α → Prop := fun a b =>
  (a = g ∧ b = p) ∨ (a ≠ g ∧ r a b)

variable {g : α}

lemma steps_congr_away {r' : α → α → Prop} (hsame : ∀ a ≠ g, ∀ b, r' a b ↔ r a b)
    (haway : ∀ j < n, ¬ Steps r j a g) : Steps r' n a b ↔ Steps r n a b := by
  induction n generalizing a with
  | zero => exact Iff.rfl
  | succ n ih =>
      have hne : a ≠ g := haway 0 (Nat.succ_pos n)
      refine exists_congr fun c => ?_
      constructor
      · rintro ⟨hac, hcb⟩
        have hac := (hsame a hne c).mp hac
        exact ⟨hac, (ih fun j hj h => haway (j + 1) (Nat.succ_lt_succ hj) ⟨c, hac, h⟩).mp hcb⟩
      · rintro ⟨hac, hcb⟩
        exact ⟨(hsame a hne c).mpr hac,
          (ih fun j hj h => haway (j + 1) (Nat.succ_lt_succ hj) ⟨c, hac, h⟩).mpr hcb⟩

lemma redirect_away (a : α) (ha : a ≠ g) (b : α) : Redirect r g p a b ↔ r a b := by
  simp [Redirect, ha]

lemma reflTransGen_away (h : ReflTransGen r a g) : ReflTransGen (fun a b => a ≠ g ∧ r a b) a g := by
  induction h using ReflTransGen.head_induction_on with
  | refl => exact .refl
  | @head a c hac _ ih =>
      by_cases ha : a = g
      · exact ha ▸ .refl
      · exact .head ⟨ha, hac⟩ ih

/-- **A redirection** of an acyclic relation is acyclic exactly when the new target does not lead back. -/
theorem acyclic_redirect_iff (h : Acyclic r) : Acyclic (Redirect r g p) ↔ ¬ ReflTransGen r p g := by
  have hold : Acyclic fun a b => a ≠ g ∧ r a b := h.mono fun _ _ hab => hab.2
  have hadd : Redirect r g p = AddEdge (fun a b => a ≠ g ∧ r a b) g p := by
    funext a b
    simp only [Redirect, AddEdge, or_comm]
  rw [hadd, acyclic_addEdge_iff hold, not_iff_not]
  exact ⟨ReflTransGen.mono (fun _ _ hab => hab.2) p g, reflTransGen_away⟩

/-- **The paths after a redirection.**  They are paths of before, or pass the new edge once. -/
theorem steps_redirect_cases (haway : ∀ j < n, ¬ Steps r j p g) (h : Steps (Redirect r g p) n a b) :
    Steps r n a b ∨ ∃ i j, i + 1 + j = n ∧ Steps r i a g ∧ Steps r j p b := by
  induction n generalizing a with
  | zero => exact .inl h
  | succ n ih =>
      have haway' : ∀ j < n, ¬ Steps r j p g := fun j hj => haway j (Nat.lt_succ_of_lt hj)
      obtain ⟨c, hac, hcb⟩ := h
      rcases hac with ⟨rfl, rfl⟩ | ⟨-, hac⟩
      · exact .inr ⟨0, n, by omega, rfl, (steps_congr_away redirect_away haway').mp hcb⟩
      · rcases ih haway' hcb with hcb | ⟨i, j, hij, hcg, hpb⟩
        · exact .inl ⟨c, hac, hcb⟩
        · exact .inr ⟨i + 1, j, by omega, ⟨c, hac, hcg⟩, hpb⟩

/-- **A path across the new edge.**  It may be shorter than the path it is made of, where that comes to
the redirected element more than once. -/
theorem Steps.redirect {i j : ℕ} (hag : Steps r i a g) (haway : ∀ k < j, ¬ Steps r k p g)
    (hpb : Steps r j p b) : ∃ n ≤ i + 1 + j, Steps (Redirect r g p) n a b := by
  classical
  have hfirst : ∃ i, Steps r i a g := ⟨i, hag⟩
  have hbefore : ∀ k < Nat.find hfirst, ¬ Steps r k a g := fun k hk => Nat.find_min hfirst hk
  have hto : Steps (Redirect r g p) (Nat.find hfirst) a g :=
    (steps_congr_away redirect_away hbefore).mpr (Nat.find_spec hfirst)
  have hon : Steps (Redirect r g p) (1 + j) g b := by
    rw [Nat.add_comm]
    exact ⟨p, .inl ⟨rfl, rfl⟩, (steps_congr_away redirect_away haway).mpr hpb⟩
  have hle : Nat.find hfirst ≤ i := Nat.find_min' hfirst hag
  exact ⟨Nat.find hfirst + (1 + j), by omega, hto.trans hon⟩

end Redirect

section Search

variable [DecidableEq α] (next : α → List α)

/-- The levels of a search: what it has found, and so many levels more below that. -/
def searchDown : ℕ → List α → List α
  | 0, found => found
  | n + 1, found => found ++ searchDown n (found.flatMap next).dedup

variable {next}

/-- **What a bounded search finds.** -/
theorem mem_searchDown {found : List α} : b ∈ searchDown next n found ↔
    ∃ a ∈ found, ∃ d ≤ n, Steps (fun a b => b ∈ next a) d a b := by
  induction n generalizing found with
  | zero =>
      rw [searchDown]
      constructor
      · intro h
        exact ⟨b, h, 0, Nat.le_refl 0, rfl⟩
      · rintro ⟨a, ha, d, hd, hsteps⟩
        obtain rfl : d = 0 := by omega
        rw [Steps] at hsteps
        exact hsteps ▸ ha
  | succ n ih =>
      rw [searchDown, List.mem_append, ih]
      constructor
      · rintro (h | ⟨c, hc, d, hd, hsteps⟩)
        · exact ⟨b, h, 0, Nat.zero_le _, rfl⟩
        · obtain ⟨a, ha, hac⟩ := List.mem_flatMap.mp (List.mem_dedup.mp hc)
          exact ⟨a, ha, d + 1, by omega, c, hac, hsteps⟩
      · rintro ⟨a, ha, d, hd, hsteps⟩
        cases d with
        | zero =>
            rw [Steps] at hsteps
            exact .inl (hsteps ▸ ha)
        | succ d =>
            obtain ⟨c, hac, hcb⟩ := hsteps
            exact .inr ⟨c, List.mem_dedup.mpr (List.mem_flatMap.mpr ⟨a, ha, hac⟩), d, by omega, hcb⟩

end Search

end Paths
