import Mathlib.Data.List.Nodup
import Mathlib.Order.Lattice

/-!
# Marks that expire

Replay protection by marks: whoever presents a token claims a mark under the token's key, which
succeeds when no mark is there, and the mark goes by itself at its deadline.  A mark is there
*before* its deadline and gone *at* it.

`Marks.claim` is the atomic "set if absent, with a lifetime".  `Guarded` is a kind of attempt that
claims a mark: the key it resolves to (`none`: refused before any mark is asked for), when it takes
place and until when its mark lasts.  Over a whole history of attempts in the order of time, two
accepted attempts with one key lie at least a mark's life apart (`accepted_pairwise`), so a window
that every mark outlasts lets each key through once (`accepted_keys_nodup`); and for two attempts
that is the exact condition (`exists_both_accepted_iff`).
-/

/-- The deadline of the mark under each key. -/
abbrev Marks (K T : Type*) := K → Option T

namespace Marks

variable {K T : Type*} [LinearOrder T]

/-- No marks at all. -/
def empty : Marks K T := fun _ => none

/-- A mark is there until its deadline. -/
def isThere (m : Marks K T) (k : K) (now : T) : Bool := (m k).any fun d => decide (now < d)

/-- Set a mark under `k` unless one is there. -/
def claim [DecidableEq K] (m : Marks K T) (k : K) (now deadline : T) : Bool × Marks K T :=
  if m.isThere k now then (false, m) else (true, fun j => if j = k then some deadline else m j)

/-- Set a mark under `k`, in place of what was there. -/
def put [DecidableEq K] (m : Marks K T) (k : K) (deadline : T) : Marks K T :=
  fun j => if j = k then some deadline else m j

@[simp] lemma isThere_put [DecidableEq K] {m : Marks K T} {k : K} {deadline t : T} :
    (m.put k deadline).isThere k t = decide (t < deadline) := by
  simp [put, isThere]

lemma isThere_eq_false {m : Marks K T} {k : K} {now : T} :
    m.isThere k now = false ↔ ∀ d ∈ m k, d ≤ now := by
  rw [isThere]
  cases m k with
  | none => simp
  | some d => simp

lemma isThere_eq_false_mono {m : Marks K T} {k : K} {now t : T} (h : m.isThere k now = false)
    (hle : now ≤ t) : m.isThere k t = false := by
  rw [isThere_eq_false] at h ⊢
  intro d hd
  exact (h d hd).trans hle

lemma claim_fst [DecidableEq K] {m : Marks K T} {k : K} {now deadline : T} :
    (m.claim k now deadline).1 = !m.isThere k now := by
  rw [claim]
  split_ifs with h <;> simp [h]

lemma isThere_claim [DecidableEq K] {m : Marks K T} {k : K} {now deadline t : T} (h : m.isThere k now = false) :
    (m.claim k now deadline).2.isThere k t = decide (t < deadline) := by
  rw [claim, if_neg (by simp [h])]
  simp [isThere]

end Marks

/-- A kind of attempt that claims a mark: when it takes place, the key it resolves to, and the
deadline of its mark. -/
structure Guarded (A K T : Type*) where
  time : A → T
  key : A → Option K
  deadline : A → T

namespace Guarded

variable {A K T : Type*} [DecidableEq K] [LinearOrder T] (G : Guarded A K T)

/-- One attempt: whether it is accepted, and the marks it leaves. -/
def attempt (m : Marks K T) (a : A) : Bool × Marks K T :=
  match G.key a with
  | none => (false, m)
  | some k => m.claim k (G.time a) (G.deadline a)

/-- The attempts of a history that are accepted. -/
def accepted : Marks K T → List A → List A
  | _, [] => []
  | m, a :: as =>
      if (G.attempt m a).1 then a :: accepted (G.attempt m a).2 as
      else accepted (G.attempt m a).2 as

variable {G} {m : Marks K T} {a b : A} {as : List A} {k : K}

lemma attempt_fst_iff : (G.attempt m a).1 = true ↔ ∃ k, G.key a = some k ∧
    m.isThere k (G.time a) = false := by
  rw [attempt]
  cases G.key a with
  | none => simp
  | some k => simp [Marks.claim_fst]

lemma attempt_snd (k : K) : (G.attempt m a).2 k = m k ∨
    ((G.attempt m a).1 = true ∧ G.key a = some k ∧ (G.attempt m a).2 k = some (G.deadline a)) := by
  rw [attempt]
  cases hkey : G.key a with
  | none => exact .inl rfl
  | some j =>
      simp only [Marks.claim]
      split_ifs with hthere
      · exact .inl rfl
      · by_cases hkj : k = j
        · exact .inr ⟨rfl, congrArg some hkj.symm, if_pos hkj⟩
        · exact .inl (if_neg hkj)

lemma accepted_sublist : (G.accepted m as).Sublist as := by
  induction as generalizing m with
  | nil => exact List.Sublist.refl _
  | cons a as ih =>
      rw [accepted]
      split_ifs
      · exact ih.cons_cons a
      · exact ih.cons a

/-- An attempt that is accepted comes at the deadline of the mark that was under its key, or
later. -/
lemma le_time_of_accepted {d : T} (hsorted : as.Pairwise fun a b => G.time a ≤ G.time b)
    (hd : m k = some d) (hb : b ∈ G.accepted m as) (hkey : G.key b = some k) : d ≤ G.time b := by
  induction as generalizing m with
  | nil => cases hb
  | cons a as ih =>
      obtain ⟨hfirst, hrest⟩ := List.pairwise_cons.mp hsorted
      rw [accepted] at hb
      -- either `b` is the first attempt, or the mark under `k` is the old one or one set since
      have hlater : b ∈ G.accepted (G.attempt m a).2 as → d ≤ G.time b := by
        intro hb
        rcases attempt_snd (G := G) (m := m) (a := a) k with hsame | ⟨hacc, hka, -⟩
        · exact ih hrest (hsame.trans hd) hb
        · obtain ⟨j, hj, hfree⟩ := attempt_fst_iff.mp hacc
          rw [hka] at hj
          cases hj
          exact (Marks.isThere_eq_false.mp hfree d hd).trans (hfirst b (accepted_sublist.subset hb))
      split_ifs at hb with hacc
      · rcases List.mem_cons.mp hb with rfl | hb
        · obtain ⟨j, hj, hfree⟩ := attempt_fst_iff.mp hacc
          rw [hkey] at hj
          cases hj
          exact Marks.isThere_eq_false.mp hfree d hd
        · exact hlater hb
      · exact hlater hb

/-- **Accepted attempts lie a mark's life apart.** -/
theorem accepted_pairwise (m : Marks K T) (hsorted : as.Pairwise fun a b => G.time a ≤ G.time b) :
    (G.accepted m as).Pairwise fun a b => G.key a = G.key b → G.deadline a ≤ G.time b := by
  induction as generalizing m with
  | nil => exact List.Pairwise.nil
  | cons a as ih =>
      obtain ⟨-, hrest⟩ := List.pairwise_cons.mp hsorted
      rw [accepted]
      split_ifs with hacc
      · refine List.pairwise_cons.mpr ⟨?_, ih _ hrest⟩
        intro b hb hkey
        obtain ⟨k, hk, hfree⟩ := attempt_fst_iff.mp hacc
        have hmark : (G.attempt m a).2 k = some (G.deadline a) := by
          simp only [attempt, hk, Marks.claim, hfree]
          simp
        exact le_time_of_accepted hrest hmark hb (hkey.symm.trans hk)
      · exact ih _ hrest

lemma key_of_accepted (hb : b ∈ G.accepted m as) : ∃ k, G.key b = some k := by
  induction as generalizing m with
  | nil => cases hb
  | cons a as ih =>
      rw [accepted] at hb
      split_ifs at hb with hacc
      · rcases List.mem_cons.mp hb with rfl | hb
        · obtain ⟨k, hk, -⟩ := attempt_fst_iff.mp hacc
          exact ⟨k, hk⟩
        · exact ih hb
      · exact ih hb

/-- **Each key is let through once**, when the mark of every attempt outlasts all later attempts
with its key. -/
theorem accepted_keys_nodup (m : Marks K T) (hsorted : as.Pairwise fun a b => G.time a ≤ G.time b)
    (houtlasts : ∀ a b k, G.key a = some k → G.key b = some k → G.time a ≤ G.time b →
      G.time b < G.deadline a) :
    ((G.accepted m as).map G.key).Nodup := by
  rw [List.Nodup, List.pairwise_map]
  have htimes := hsorted.sublist (accepted_sublist (G := G) (m := m))
  refine List.Pairwise.imp_of_mem ?_ ((accepted_pairwise m hsorted).and htimes)
  rintro a b ha - ⟨hdeadline, htime⟩ hkey
  obtain ⟨k, hk⟩ := key_of_accepted ha
  exact absurd (hdeadline hkey) (not_le.mpr (houtlasts a b k hk (hkey.symm.trans hk) htime))

/-- Two attempts with one key are both accepted when no mark is there at first and the first one's
is over by the second. -/
lemma both_accepted_iff (ha : G.key a = some k) (hb : G.key b = some k) :
    ((G.attempt m a).1 = true ∧ (G.attempt (G.attempt m a).2 b).1 = true) ↔
      m.isThere k (G.time a) = false ∧ G.deadline a ≤ G.time b := by
  have hfst : (G.attempt m a).1 = true ↔ m.isThere k (G.time a) = false := by
    simp [attempt, ha, Marks.claim_fst]
  rw [hfst]
  refine and_congr_right fun hfree => ?_
  simp only [attempt, ha, hb, Marks.claim_fst, Marks.isThere_claim hfree]
  simp

/-- **When two attempts can both be accepted.**  Attempts that would claim the same mark are both
accepted, from some marks on, exactly when both get to claim it and the first one's is over by the
second. -/
theorem exists_both_accepted_iff
    (hsame : ∀ k k', G.key a = some k → G.key b = some k' → k = k') :
    (∃ m, (G.attempt m a).1 = true ∧ (G.attempt (G.attempt m a).2 b).1 = true) ↔
      (∃ k, G.key a = some k) ∧ (∃ k, G.key b = some k) ∧ G.deadline a ≤ G.time b := by
  constructor
  · rintro ⟨m, hfst, hsnd⟩
    obtain ⟨k, hk, -⟩ := attempt_fst_iff.mp hfst
    obtain ⟨k', hk', -⟩ := attempt_fst_iff.mp hsnd
    have hkk : k = k' := hsame k k' hk hk'
    subst hkk
    exact ⟨⟨k, hk⟩, ⟨k, hk'⟩, ((both_accepted_iff hk hk').mp ⟨hfst, hsnd⟩).2⟩
  · rintro ⟨⟨k, hk⟩, ⟨k', hk'⟩, hover⟩
    have hkk : k = k' := hsame k k' hk hk'
    subst hkk
    exact ⟨Marks.empty, (both_accepted_iff hk hk').mpr ⟨rfl, hover⟩⟩

end Guarded
