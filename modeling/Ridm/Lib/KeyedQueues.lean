import Mathlib.Data.List.Perm.Basic
import Mathlib.Data.List.Nodup

/-!
# Queues under keys

A map from keys to queues, as the list of its entries in the order they are iterated.  `queue`
reads one queue, `push` appends to one (and makes it when it is missing), `popFront` takes the
oldest element of one, `prune` forgets the empty ones and `longest` finds a key whose queue is
longest.

Each operation comes with what it does to every single queue and with what it does to the
elements as a whole (`contents`, up to order): the first is what an argument about order needs,
the second what an argument about loss and duplication needs.
-/

namespace KeyedQueues

variable {K E : Type*} [DecidableEq K]

/-- The entries of the map, in the order they are iterated. -/
abbrev Queues (K E : Type*) := List (K × List E)

/-- The queue of a key; a key that is missing has an empty one. -/
def queue : Queues K E → K → List E
  | [], _ => []
  | (k', q) :: l, k => if k' = k then q else queue l k

/-- All elements, queue after queue. -/
def contents (l : Queues K E) : List E := l.flatMap (·.2)

/-- The keys differ, as those of a map do. -/
def Distinct (l : Queues K E) : Prop := (l.map (·.1)).Nodup

/-- `entry(k).or_default()`, and the elements pushed to its back. -/
def push : Queues K E → K → List E → Queues K E
  | [], k, es => [(k, es)]
  | (k', q) :: l, k, es => if k' = k then (k', q ++ es) :: l else (k', q) :: push l k es

/-- The oldest element of a key's queue, and the map without it. -/
def popFront : Queues K E → K → Option (E × Queues K E)
  | [], _ => none
  | (k', q) :: l, k =>
      if k' = k then q.head?.map fun e => (e, (k', q.tail) :: l)
      else (popFront l k).map fun p => (p.1, (k', q) :: p.2)

/-- The map without its empty queues. -/
def prune (l : Queues K E) : Queues K E := l.filter fun p => !p.2.isEmpty

def longest : Queues K E → Option K
  | [] => none
  | (k, q) :: l =>
      match longest l with
      | none => some k
      | some k' => if q.length ≤ (queue l k').length then some k' else some k

/-! ## Reading -/

@[simp] lemma queue_nil (k : K) : queue ([] : Queues K E) k = [] := rfl

lemma queue_cons (k' k : K) (q : List E) (l : Queues K E) :
    queue ((k', q) :: l) k = if k' = k then q else queue l k := rfl

omit [DecidableEq K] in
@[simp] lemma contents_nil : contents ([] : Queues K E) = [] := rfl

omit [DecidableEq K] in
@[simp] lemma contents_cons (p : K × List E) (l : Queues K E) :
    contents (p :: l) = p.2 ++ contents l := rfl

variable {l : Queues K E} {k : K}

lemma queue_of_notMem (h : k ∉ l.map (·.1)) : queue l k = [] := by
  induction l with
  | nil => rfl
  | cons p l ih =>
      obtain ⟨k', q⟩ := p
      simp only [List.map_cons, List.mem_cons, not_or] at h
      rw [queue_cons, if_neg (Ne.symm h.1), ih h.2]

lemma queue_of_mem {q : List E} (hd : Distinct l) (h : (k, q) ∈ l) :
    queue l k = q := by
  induction l with
  | nil => cases h
  | cons p l ih =>
      obtain ⟨k', q'⟩ := p
      obtain ⟨hk', hl⟩ := List.nodup_cons.mp hd
      rcases List.mem_cons.mp h with heq | h
      · cases heq
        rw [queue_cons, if_pos rfl]
      · have hne : k' ≠ k := by
          rintro rfl
          exact hk' (List.mem_map.mpr ⟨_, h, rfl⟩)
        rw [queue_cons, if_neg hne, ih hl h]

lemma mem_of_queue_ne_nil (h : queue l k ≠ []) : (k, queue l k) ∈ l := by
  induction l with
  | nil => exact absurd rfl h
  | cons p l ih =>
      obtain ⟨k', q⟩ := p
      rw [queue_cons] at h ⊢
      split_ifs at h ⊢ with hk
      · subst hk
        exact List.mem_cons_self
      · exact List.mem_cons_of_mem _ (ih h)

lemma queue_perm {l l' : Queues K E} (hd : Distinct l) (h : l.Perm l') (k : K) :
    queue l' k = queue l k := by
  have hkeys : (l.map (·.1)).Perm (l'.map (·.1)) := h.map _
  have hd' : Distinct l' := hkeys.nodup_iff.mp hd
  by_cases hk : k ∈ l.map (·.1)
  · obtain ⟨⟨k', q⟩, hmem, rfl⟩ := List.mem_map.mp hk
    rw [queue_of_mem hd hmem, queue_of_mem hd' (h.mem_iff.mp hmem)]
  · rw [queue_of_notMem hk, queue_of_notMem fun hk' => hk (hkeys.mem_iff.mpr hk')]

omit [DecidableEq K] in
lemma contents_perm {l l' : Queues K E} (h : l.Perm l') : (contents l').Perm (contents l) :=
  (h.symm.flatMap_right _)

omit [DecidableEq K] in
lemma Distinct.of_middle {l m : Queues K E} {q : List E} (hd : Distinct (l ++ (k, q) :: m)) :
    Distinct (l ++ m) ∧ k ∉ (l ++ m).map (·.1) := by
  have hperm : ((l ++ (k, q) :: m).map (·.1)).Perm (((k, q) :: (l ++ m)).map (·.1)) :=
    List.perm_middle.map _
  obtain ⟨hk, hrest⟩ := List.nodup_cons.mp (hperm.nodup_iff.mp hd)
  exact ⟨hrest, hk⟩

lemma queue_middle {l m : Queues K E} {q : List E} (hd : Distinct (l ++ (k, q) :: m))
    (c : K) : queue (l ++ (k, q) :: m) c = if k = c then q else queue (l ++ m) c := by
  rw [← queue_perm hd List.perm_middle c, queue_cons]

omit [DecidableEq K] in
lemma contents_middle (l m : Queues K E) (p : K × List E) :
    (contents (l ++ p :: m)).Perm (p.2 ++ contents (l ++ m)) :=
  contents_perm List.perm_middle.symm

/-! ## Pushing -/

lemma queue_push (l : Queues K E) (k k' : K) (es : List E) :
    queue (push l k es) k' = queue l k' ++ if k' = k then es else [] := by
  induction l with
  | nil =>
      by_cases hk : k' = k
      · subst hk
        simp [push, queue_cons]
      · simp [push, queue_cons, hk, Ne.symm hk]
  | cons p l ih =>
      obtain ⟨j, q⟩ := p
      by_cases hj : j = k
      · subst hj
        rw [push, if_pos rfl, queue_cons, queue_cons]
        by_cases hk : j = k'
        · subst hk
          simp
        · rw [if_neg hk, if_neg hk, if_neg (Ne.symm hk), List.append_nil]
      · rw [push, if_neg hj, queue_cons, queue_cons, ih]
        by_cases hk : j = k'
        · subst hk
          simp [hj]
        · simp [hk]

lemma keys_push (l : Queues K E) (k : K) (es : List E) :
    (push l k es).map (·.1) = if k ∈ l.map (·.1) then l.map (·.1) else l.map (·.1) ++ [k] := by
  induction l with
  | nil => simp [push]
  | cons p l ih =>
      obtain ⟨j, q⟩ := p
      by_cases hj : j = k
      · subst hj
        simp [push]
      · rw [push, if_neg hj, List.map_cons, ih]
        by_cases hk : k ∈ l.map (·.1)
        · simp [hk]
        · simp [hk, Ne.symm hj]

lemma Distinct.push (hd : Distinct l) (k : K) (es : List E) :
    Distinct (push l k es) := by
  rw [Distinct, keys_push]
  split_ifs with hk
  · exact hd
  · refine List.Nodup.append hd (List.nodup_singleton k) ?_
    intro x hx hxk
    rw [List.mem_singleton] at hxk
    exact hk (hxk ▸ hx)

lemma contents_push (l : Queues K E) (k : K) (es : List E) :
    (contents (push l k es)).Perm (contents l ++ es) := by
  induction l with
  | nil => simp [push]
  | cons p l ih =>
      obtain ⟨j, q⟩ := p
      rw [push]
      split_ifs with hj
      · rw [contents_cons, contents_cons, List.append_assoc, List.append_assoc]
        exact List.perm_append_comm.append_left q
      · rw [contents_cons, contents_cons, List.append_assoc]
        exact ih.append_left q

/-! ## Popping -/

lemma popFront_eq_none (h : popFront l k = none) : queue l k = [] := by
  induction l with
  | nil => rfl
  | cons p l ih =>
      obtain ⟨j, q⟩ := p
      rw [popFront] at h
      rw [queue_cons]
      split_ifs at h ⊢ with hj
      · cases q with
        | nil => rfl
        | cons e q => cases h
      · rw [Option.map_eq_none_iff] at h
        exact ih h

lemma popFront_spec {l l' : Queues K E} {e : E} (h : popFront l k = some (e, l')) :
    l'.map (·.1) = l.map (·.1) ∧ queue l k = e :: queue l' k ∧
      (∀ k', k' ≠ k → queue l' k' = queue l k') ∧ (contents l).Perm (e :: contents l') := by
  induction l generalizing l' with
  | nil => cases h
  | cons p l ih =>
      obtain ⟨j, q⟩ := p
      rw [popFront] at h
      split_ifs at h with hj
      · cases q with
        | nil => cases h
        | cons x q =>
            cases h
            subst hj
            refine ⟨rfl, by simp [queue_cons], ?_, .refl _⟩
            intro k' hk'
            rw [queue_cons, queue_cons, if_neg (Ne.symm hk'), if_neg (Ne.symm hk')]
      · rw [Option.map_eq_some_iff] at h
        obtain ⟨⟨x, m⟩, hpop, heq⟩ := h
        cases heq
        obtain ⟨hkeys, hfront, hothers, hperm⟩ := ih hpop
        refine ⟨by simp [hkeys], ?_, ?_, ?_⟩
        · rw [queue_cons, queue_cons, if_neg hj, if_neg hj, hfront]
        · intro k' hk'
          rw [queue_cons, queue_cons, hothers k' hk']
        · rw [contents_cons, contents_cons]
          exact (hperm.append_left q).trans List.perm_middle

/-! ## Pruning -/

omit [DecidableEq K] in
lemma contents_prune (l : Queues K E) : contents (prune l) = contents l := by
  induction l with
  | nil => rfl
  | cons p l ih =>
      obtain ⟨k, q⟩ := p
      cases q with
      | nil => simpa [prune] using ih
      | cons e q =>
          have hcons : prune ((k, e :: q) :: l) = (k, e :: q) :: prune l := by simp [prune]
          rw [hcons, contents_cons, contents_cons, ih]

omit [DecidableEq K] in
lemma Distinct.prune (hd : Distinct l) : Distinct (prune l) :=
  hd.sublist (List.Sublist.map _ List.filter_sublist)

omit [DecidableEq K] in
lemma prune_ne_nil : ∀ p ∈ prune l, p.2 ≠ [] := by
  intro p hp
  have := (List.mem_filter.mp hp).2
  simpa using this

lemma queue_prune (hd : Distinct l) (k : K) : queue (prune l) k = queue l k := by
  by_cases hne : queue l k = []
  · rw [hne]
    by_contra hne'
    have hmem := mem_of_queue_ne_nil hne'
    rw [← queue_of_mem hd (List.mem_filter.mp hmem).1] at hne'
    exact hne' hne
  · have hmem : (k, queue l k) ∈ prune l :=
      List.mem_filter.mpr ⟨mem_of_queue_ne_nil hne, by simpa using hne⟩
    exact queue_of_mem hd.prune hmem

/-! ## The longest queue -/

lemma longest_eq_none (h : longest l = none) : l = [] := by
  cases l with
  | nil => rfl
  | cons p l =>
      obtain ⟨k, q⟩ := p
      rw [longest] at h
      cases hl : longest l with
      | none => simp [hl] at h
      | some k' =>
          simp only [hl] at h
          split_ifs at h

lemma queue_longest_ne_nil (hd : Distinct l) (h : longest l = some k)
    (hne : contents l ≠ []) : queue l k ≠ [] := by
  -- it is a queue of the list, and at least as long as the others
  have key : ∀ {l : Queues K E} {k : K}, Distinct l → longest l = some k →
      k ∈ l.map (·.1) ∧ ∀ p ∈ l, p.2.length ≤ (queue l k).length := by
    intro l
    induction l with
    | nil =>
        intro k _ h
        cases h
    | cons p l ih =>
        obtain ⟨j, q⟩ := p
        intro k hd h
        obtain ⟨hj, hl⟩ := List.nodup_cons.mp hd
        have hself : queue ((j, q) :: l) j = q := by rw [queue_cons, if_pos rfl]
        have hother : ∀ {m}, m ∈ l.map (·.1) → queue ((j, q) :: l) m = queue l m := by
          intro m hm
          have hne : j ≠ m := by
            rintro rfl
            exact hj hm
          rw [queue_cons, if_neg hne]
        rw [longest] at h
        cases hlong : longest l with
        | none =>
            simp only [hlong, Option.some.injEq] at h
            subst h
            refine ⟨List.mem_cons_self, ?_⟩
            intro p hp
            rw [longest_eq_none hlong, List.mem_singleton] at hp
            exact Nat.le_of_eq (by rw [hp, hself])
        | some m =>
            obtain ⟨hm, hmax⟩ := ih hl hlong
            simp only [hlong] at h
            split_ifs at h with hle
            · cases h
              refine ⟨List.mem_cons_of_mem _ hm, ?_⟩
              intro p hp
              rw [hother hm]
              rcases List.mem_cons.mp hp with rfl | hp
              · exact hle
              · exact hmax p hp
            · cases h
              refine ⟨List.mem_cons_self, ?_⟩
              intro p hp
              rw [hself]
              rcases List.mem_cons.mp hp with rfl | hp
              · exact Nat.le_refl _
              · have := hmax p hp
                omega
  intro hnil
  refine hne ?_
  rw [contents, List.flatMap_eq_nil_iff]
  intro p hp
  have := (key hd h).2 p hp
  rw [hnil, List.length_nil, Nat.le_zero] at this
  exact List.eq_nil_of_length_eq_zero this

end KeyedQueues
