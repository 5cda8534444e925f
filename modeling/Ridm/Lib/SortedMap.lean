import Mathlib.Order.Lattice
import Mathlib.Tactic.Common

/-!
# Maps in the order of their keys

A finite map over a linear order, as the list of its entries with the keys strictly ascending.  The list is
determined by what the map gives for each key (`ext_get`), so two maps that were filled in different
orders are the same map with the same entries.
-/

/-- A finite map, by its entries in the order of their keys. -/
structure SortedMap (κ ν : Type*) [LinearOrder κ] where
  entries : List (κ × ν)
  sorted : entries.Pairwise fun x y => x.1 < y.1

namespace SortedMap

variable {κ ν : Type*} [LinearOrder κ]

/-- No entries. -/
def empty : SortedMap κ ν := ⟨[], List.Pairwise.nil⟩

/-- What the map gives for a key. -/
def get (m : SortedMap κ ν) (k : κ) : Option ν := m.entries.lookup k

/-- An entry put where its key belongs, in place of one with that key. -/
def insertInto (k : κ) (v : ν) : List (κ × ν) → List (κ × ν)
  | [] => [(k, v)]
  | x :: l =>
      if k < x.1 then (k, v) :: x :: l
      else if k = x.1 then (k, v) :: l
      else x :: insertInto k v l

lemma mem_insertInto {k : κ} {v : ν} {l : List (κ × ν)} {y : κ × ν} (h : y ∈ insertInto k v l) :
    y = (k, v) ∨ y ∈ l := by
  induction l with
  | nil => exact .inl (List.mem_singleton.mp h)
  | cons x l ih =>
      rw [insertInto] at h
      split_ifs at h
      · rcases List.mem_cons.mp h with rfl | h
        · exact .inl rfl
        · exact .inr h
      · rcases List.mem_cons.mp h with rfl | h
        · exact .inl rfl
        · exact .inr (List.mem_cons_of_mem _ h)
      · rcases List.mem_cons.mp h with rfl | h
        · exact .inr List.mem_cons_self
        · exact (ih h).imp_right (List.mem_cons_of_mem _)

lemma insertInto_sorted (k : κ) (v : ν) {l : List (κ × ν)} (h : l.Pairwise fun x y => x.1 < y.1) :
    (insertInto k v l).Pairwise fun x y => x.1 < y.1 := by
  induction l with
  | nil => exact List.pairwise_singleton _ _
  | cons x l ih =>
      obtain ⟨hx, hl⟩ := List.pairwise_cons.mp h
      rw [insertInto]
      split_ifs with hlt heq
      · refine List.pairwise_cons.mpr ⟨fun y hy => ?_, h⟩
        rcases List.mem_cons.mp hy with rfl | hy
        · exact hlt
        · exact lt_trans hlt (hx y hy)
      · exact List.pairwise_cons.mpr ⟨fun y hy => heq ▸ hx y hy, hl⟩
      · refine List.pairwise_cons.mpr ⟨fun y hy => ?_, ih hl⟩
        rcases mem_insertInto hy with rfl | hy
        · exact lt_of_le_of_ne (not_lt.mp hlt) (Ne.symm heq)
        · exact hx y hy

def insert (m : SortedMap κ ν) (k : κ) (v : ν) : SortedMap κ ν :=
  ⟨insertInto k v m.entries, insertInto_sorted k v m.sorted⟩

/-- `entry(k).or_insert(v)`. -/
def orInsert (m : SortedMap κ ν) (k : κ) (v : ν) : SortedMap κ ν :=
  if (m.get k).isSome then m else m.insert k v

lemma lookup_cons_eq (k : κ) (x : κ × ν) (l : List (κ × ν)) :
    (x :: l).lookup k = if k = x.1 then some x.2 else l.lookup k := by
  rw [List.lookup_cons]
  split_ifs with h
  · rw [h, beq_self_eq_true]
  · rw [beq_false_of_ne h]

lemma lookup_insertInto (k : κ) (v : ν) (l : List (κ × ν)) (k' : κ) :
    (insertInto k v l).lookup k' = if k' = k then some v else l.lookup k' := by
  induction l with
  | nil => rw [insertInto, lookup_cons_eq]
  | cons x l ih =>
      rw [insertInto]
      by_cases h : k' = k
      · subst h
        rw [if_pos rfl]
        split_ifs with hlt heq
        · rw [lookup_cons_eq, if_pos rfl]
        · rw [lookup_cons_eq, if_pos rfl]
        · rw [lookup_cons_eq, if_neg heq, ih, if_pos rfl]
      · rw [if_neg h]
        split_ifs with hlt heq
        · rw [lookup_cons_eq, if_neg h]
        · rw [lookup_cons_eq, lookup_cons_eq, if_neg h, if_neg (heq ▸ h)]
        · rw [lookup_cons_eq, lookup_cons_eq, ih, if_neg h]

@[simp] lemma get_empty (k : κ) : (empty : SortedMap κ ν).get k = none := rfl

@[simp] lemma get_insert (m : SortedMap κ ν) (k : κ) (v : ν) (k' : κ) :
    (m.insert k v).get k' = if k' = k then some v else m.get k' :=
  lookup_insertInto k v m.entries k'

lemma get_orInsert (m : SortedMap κ ν) (k : κ) (v : ν) (k' : κ) :
    (m.orInsert k v).get k' = if k' = k then some ((m.get k).getD v) else m.get k' := by
  unfold orInsert
  cases hk : m.get k with
  | none => simp
  | some u =>
      by_cases h : k' = k
      · simp [h, hk]
      · simp [h]

lemma get_eq_some_iff (m : SortedMap κ ν) {k : κ} {v : ν} : m.get k = some v ↔ (k, v) ∈ m.entries := by
  obtain ⟨l, hl⟩ := m
  rw [get]
  induction l with
  | nil => simp
  | cons x l ih =>
      obtain ⟨hx, hl⟩ := List.pairwise_cons.mp hl
      rw [lookup_cons_eq, List.mem_cons]
      split_ifs with h
      · subst h
        refine ⟨fun hv => .inl ?_, ?_⟩
        · rw [← Option.some.inj hv]
        · rintro (heq | hmem)
          · rw [← heq]
          · exact absurd (hx _ hmem) (lt_irrefl _)
      · refine (ih hl).trans ⟨.inr, ?_⟩
        rintro (heq | hmem)
        · exact absurd (congrArg Prod.fst heq) h
        · exact hmem

/-- **A map is what it gives for each key.** -/
theorem ext_get {m m' : SortedMap κ ν} (h : ∀ k, m.get k = m'.get k) : m = m' := by
  have hmem : ∀ x, x ∈ m.entries ↔ x ∈ m'.entries := fun ⟨k, v⟩ => by
    rw [← get_eq_some_iff, ← get_eq_some_iff, h]
  obtain ⟨l, hl⟩ := m
  obtain ⟨l', hl'⟩ := m'
  congr
  have hnodup : ∀ {l : List (κ × ν)}, (l.Pairwise fun x y => x.1 < y.1) → l.Nodup := by
    refine fun hl => List.Pairwise.imp (fun {x y} hlt => ?_) hl
    rintro rfl
    exact lt_irrefl x.1 hlt
  have hperm : l.Perm l' := (List.perm_ext_iff_of_nodup (hnodup hl) (hnodup hl')).mpr hmem
  exact hperm.eq_of_pairwise (fun x y _ _ hxy hyx => absurd (lt_trans hxy hyx) (lt_irrefl _)) hl hl'

end SortedMap
