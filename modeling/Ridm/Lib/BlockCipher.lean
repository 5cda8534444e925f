import Mathlib.Tactic.Common

/-!
# Block ciphers, chained, with the end stolen

A block cipher is a permutation of the words of one length.  `chain` is cipher block chaining, where the
cipher text of a block masks the block behind it, and `steal` is chaining of a word that ends with a part of a
block: the last part is filled up, and the cipher text of the block before it gives up as much.

* `unchain_chain`, `chain_unchain` — chaining is undone on whole blocks, from either side.
* `chain_append` — the last block, masked by the cipher text before it.
* `unsteal_steal`, `steal_unsteal` — so is stealing, on every word that is a block longer than whole blocks and
  a part.  The stolen end is in the decryption of the last block, where the filling has masked nothing.
-/

/-- An addition of letters that undoes itself, with a letter that adds nothing. -/
structure Mask (α : Type) where
  add : α → α → α
  zero : α
  add_add : ∀ a b, add (add a b) b = a
  zero_add : ∀ a, add zero a = a

namespace Mask

variable {α : Type} (M : Mask α) {a b : List α} {k : ℕ}

/-- Words, letter by letter. -/
def words (a b : List α) : List α := List.zipWith M.add a b

lemma length_words (h : a.length = b.length) : (M.words a b).length = a.length := by
  rw [words, List.length_zipWith, h, Nat.min_self]

lemma words_words (h : a.length = b.length) : M.words (M.words a b) b = a := by
  induction a generalizing b with
  | nil => rfl
  | cons x xs ih =>
      cases b with
      | nil => cases h
      | cons y ys => exact congrArg₂ List.cons (M.add_add x y) (ih (Nat.succ.inj h))

lemma words_append {a' b' : List α} (h : a.length = b.length) :
    M.words (a ++ a') (b ++ b') = M.words a b ++ M.words a' b' := List.zipWith_append h

lemma words_zeros (b : List α) : M.words (List.replicate b.length M.zero) b = b := by
  induction b with
  | nil => rfl
  | cons y ys ih => exact congrArg₂ List.cons (M.zero_add y) ih

end Mask

/-- A permutation of the words of one length, and its inverse. -/
structure BlockCipher (α : Type) (n : ℕ) where
  enc : List α → List α
  dec : List α → List α
  length_enc : ∀ b, b.length = n → (enc b).length = n
  length_dec : ∀ b, b.length = n → (dec b).length = n
  dec_enc : ∀ b, b.length = n → dec (enc b) = b
  enc_dec : ∀ b, b.length = n → enc (dec b) = b

namespace BlockCipher

variable {α : Type} {n : ℕ} (M : Mask α) (C : BlockCipher α n)

/-- So many blocks, each on its own. -/
def each (n : ℕ) (f : List α → List α) : ℕ → List α → List α
  | 0, _ => []
  | k + 1, l => f (l.take n) ++ each n f k (l.drop n)

/-- So many blocks, each masked by the cipher text before it. -/
def chain (iv : List α) : ℕ → List α → List α
  | 0, _ => []
  | k + 1, l =>
      let c := C.enc (M.words (l.take n) iv)
      c ++ chain c k (l.drop n)

/-- `chain` undone. -/
def unchain (iv : List α) : ℕ → List α → List α
  | 0, _ => []
  | k + 1, l => M.words (C.dec (l.take n)) iv ++ unchain (l.take n) k (l.drop n)

/-- `k` blocks, one block, and `t` letters: chained with the end filled up, the last two blocks exchanged, and
the block that is now the last cut to `t`. -/
def steal (iv : List α) (k t : ℕ) (l : List α) : List α :=
  let c := C.chain M iv (k + 2) (l ++ List.replicate (n - t) M.zero)
  c.take (n * k) ++ (c.drop (n * k)).drop n ++ (c.drop (n * k)).take t

/-- `steal` undone: the block behind the `k` first is decrypted, and what follows the `t` letters of it is the
stolen end. -/
def unsteal (iv : List α) (k t : ℕ) (l : List α) : List α :=
  let x := C.dec ((l.drop (n * k)).take n)
  let before := l.drop (n * (k + 1)) ++ x.drop t
  C.unchain M iv (k + 1) (l.take (n * k) ++ before) ++ M.words (x.take t) (before.take t)

variable {M C} {a b e iv l p q u : List α} {f : List α → List α} {k t : ℕ}

lemma length_first (h : l.length = n * (k + 1)) : (l.take n).length = n := by
  rw [List.length_take, h, Nat.mul_succ]
  omega

lemma length_others (h : l.length = n * (k + 1)) : (l.drop n).length = n * k := by
  rw [List.length_drop, h, Nat.mul_succ]
  omega

lemma each_one (h : b.length = n) : each n f 1 b = f b := by
  rw [each, each, List.append_nil, List.take_of_length_le (Nat.le_of_eq h)]

/-! ## Whole blocks -/

lemma length_chain (hiv : iv.length = n) (h : l.length = n * k) : (C.chain M iv k l).length = n * k := by
  induction k generalizing iv l with
  | zero => rfl
  | succ k ih =>
      have hhead := length_first h
      have htail := length_others h
      have hmasked : (M.words (l.take n) iv).length = n := by
        rw [M.length_words (hhead.trans hiv.symm), hhead]
      have hc := C.length_enc _ hmasked
      rw [chain, List.length_append, hc, ih hc htail, Nat.mul_succ, Nat.add_comm]

lemma length_unchain (hiv : iv.length = n) (h : l.length = n * k) : (C.unchain M iv k l).length = n * k := by
  induction k generalizing iv l with
  | zero => rfl
  | succ k ih =>
      have hhead := length_first h
      have htail := length_others h
      have hdec := C.length_dec _ hhead
      rw [unchain, List.length_append, M.length_words (hdec.trans hiv.symm), hdec, ih hhead htail,
        Nat.mul_succ, Nat.add_comm]

/-- **Chaining is undone.** -/
theorem unchain_chain (hiv : iv.length = n) (h : l.length = n * k) :
    C.unchain M iv k (C.chain M iv k l) = l := by
  induction k generalizing iv l with
  | zero => exact (List.length_eq_zero_iff.mp h).symm
  | succ k ih =>
      have hhead := length_first h
      have htail := length_others h
      have hsame : (l.take n).length = iv.length := hhead.trans hiv.symm
      have hmasked : (M.words (l.take n) iv).length = n := (M.length_words hsame).trans hhead
      have hc := C.length_enc _ hmasked
      rw [chain, unchain, List.take_left' hc, List.drop_left' hc, C.dec_enc _ hmasked, M.words_words hsame,
        ih hc htail, List.take_append_drop]

/-- **Chaining again** what was unchained. -/
theorem chain_unchain (hiv : iv.length = n) (h : l.length = n * k) :
    C.chain M iv k (C.unchain M iv k l) = l := by
  induction k generalizing iv l with
  | zero => exact (List.length_eq_zero_iff.mp h).symm
  | succ k ih =>
      have hhead := length_first h
      have htail := length_others h
      have hsame : (C.dec (l.take n)).length = iv.length := (C.length_dec _ hhead).trans hiv.symm
      have hmasked : (M.words (C.dec (l.take n)) iv).length = n :=
        (M.length_words hsame).trans (C.length_dec _ hhead)
      rw [unchain, chain, List.take_left' hmasked, List.drop_left' hmasked, M.words_words hsame,
        C.enc_dec _ hhead, ih hhead htail, List.take_append_drop]

/-- **One block more** is masked by the block before it, of the cipher text or of what comes before all. -/
theorem chain_append (hiv : iv.length = n) (ha : a.length = n * k) (hb : b.length = n) :
    C.chain M iv (k + 1) (a ++ b) =
      C.chain M iv k a ++ C.enc (M.words b ((iv ++ C.chain M iv k a).drop (n * k))) := by
  induction k generalizing iv a with
  | zero =>
      have hnil : a = [] := List.length_eq_zero_iff.mp ha
      rw [hnil, List.nil_append, chain, chain, List.take_of_length_le (Nat.le_of_eq hb), chain]
      simp
  | succ k ih =>
      have hle : n ≤ a.length := by rw [ha, Nat.mul_succ]; omega
      have hhead := length_first ha
      have htail := length_others ha
      have hmasked : (M.words (a.take n) iv).length = n := (M.length_words (hhead.trans hiv.symm)).trans hhead
      have hc := C.length_enc _ hmasked
      have hdrop : ∀ w : List α, (iv ++ w).drop (n * (k + 1)) = w.drop (n * k) := by
        intro w
        rw [Nat.mul_succ, Nat.add_comm, ← List.drop_drop, List.drop_left' hiv]
      rw [chain, List.take_append_of_le_length hle, List.drop_append_of_le_length hle, ih hc htail, hdrop,
        chain, List.append_assoc]

/-! ## The stolen end -/

lemma length_filled (hp : p.length = t) (ht : t ≤ n) : (p ++ List.replicate (n - t) M.zero).length = n := by
  rw [List.length_append, List.length_replicate, hp, Nat.add_sub_cancel' ht]

lemma length_last (h : l.length = n * (k + 1)) : (l.drop (n * k)).length = n := by
  rw [List.length_drop, h, Nat.mul_succ, Nat.add_sub_cancel_left]

lemma length_init (h : l.length = n * (k + 1)) : (l.take (n * k)).length = n * k :=
  List.length_take_of_le (by rw [h, Nat.mul_succ]; exact Nat.le_add_right _ n)

lemma length_blocks (hu : u.length = n * k) (he : e.length = n) (hq : q.length = t) (ht : t ≤ n) :
    (u ++ (q ++ e.drop t)).length = n * (k + 1) := by
  rw [List.length_append, List.length_append, List.length_drop, hu, hq, he, Nat.mul_succ]
  omega

lemma steal_append (hiv : iv.length = n) (ha : a.length = n * (k + 1)) (hp : p.length = t) (ht : t ≤ n) :
    C.steal M iv k t (a ++ p) =
      (C.chain M iv (k + 1) a).take (n * k) ++
        C.enc (M.words (p ++ List.replicate (n - t) M.zero) ((C.chain M iv (k + 1) a).drop (n * k))) ++
        ((C.chain M iv (k + 1) a).drop (n * k)).take t := by
  have hfilled := length_filled (M := M) hp ht
  have hch : (C.chain M iv (k + 1) a).length = n * (k + 1) := length_chain hiv ha
  have hcarry := length_last hch
  have hdrop : (iv ++ C.chain M iv (k + 1) a).drop (n * (k + 1)) = (C.chain M iv (k + 1) a).drop (n * k) := by
    rw [Nat.mul_succ, Nat.add_comm, ← List.drop_drop, List.drop_left' hiv]
  have hle : n * k ≤ (C.chain M iv (k + 1) a).length := hch ▸ Nat.mul_le_mul_left n (Nat.le_succ k)
  have hchain := chain_append (M := M) (C := C) hiv ha hfilled
  rw [hdrop, ← List.append_assoc] at hchain
  rw [steal, hchain, List.take_append_of_le_length hle,
    List.drop_append_of_le_length hle, List.drop_left' hcarry,
    List.take_append_of_le_length (Nat.le_trans ht (Nat.le_of_eq hcarry.symm))]

lemma unsteal_append (hu : u.length = n * k) (he : e.length = n) (hq : q.length = t) :
    C.unsteal M iv k t (u ++ e ++ q) =
      C.unchain M iv (k + 1) (u ++ (q ++ (C.dec e).drop t)) ++ M.words ((C.dec e).take t) q := by
  have hue : (u ++ e).length = n * (k + 1) := by rw [List.length_append, hu, he, Nat.mul_succ]
  rw [unsteal, List.drop_left' hue, List.append_assoc, List.take_left' hu, List.drop_left' hu,
    List.take_left' he, List.take_left' hq]

lemma exists_parts (h : l.length = n * (k + 1) + t) :
    ∃ a p, l = a ++ p ∧ a.length = n * (k + 1) ∧ p.length = t :=
  ⟨l.take (n * (k + 1)), l.drop (n * (k + 1)), (List.take_append_drop _ l).symm,
    List.length_take_of_le (h ▸ Nat.le_add_right _ t), by rw [List.length_drop, h, Nat.add_sub_cancel_left]⟩

lemma length_steal (hiv : iv.length = n) (h : l.length = n * (k + 1) + t) (ht : t ≤ n) :
    (C.steal M iv k t l).length = l.length := by
  obtain ⟨a, p, rfl, ha, hp⟩ := exists_parts h
  have hch : (C.chain M iv (k + 1) a).length = n * (k + 1) := length_chain hiv ha
  have hfilled := length_filled (M := M) hp ht
  have hcarry := length_last hch
  have he := C.length_enc _ ((M.length_words (hfilled.trans hcarry.symm)).trans hfilled)
  rw [steal_append hiv ha hp ht, h, List.length_append, List.length_append, he, length_init hch,
    List.length_take, hcarry, Nat.mul_succ]
  omega

lemma length_unsteal (hiv : iv.length = n) (h : l.length = n * (k + 1) + t) (ht : t ≤ n) :
    (C.unsteal M iv k t l).length = l.length := by
  obtain ⟨a, q, rfl, ha, hq⟩ := exists_parts h
  obtain ⟨u, e, rfl, hu, he⟩ : ∃ u e, a = u ++ e ∧ u.length = n * k ∧ e.length = n :=
    ⟨_, _, (List.take_append_drop (n * k) a).symm, length_init ha, length_last ha⟩
  have hdec := C.length_dec _ he
  have hblocks := length_blocks hu hdec hq ht
  have hpart : ((C.dec e).take t).length = q.length := by rw [List.length_take, hdec, hq]; omega
  rw [unsteal_append hu he hq, h, List.length_append, length_unchain hiv hblocks, M.length_words hpart, hpart, hq]

/-- **Stealing is undone.** -/
theorem unsteal_steal (hiv : iv.length = n) (h : l.length = n * (k + 1) + t) (ht : t ≤ n) :
    C.unsteal M iv k t (C.steal M iv k t l) = l := by
  obtain ⟨a, p, rfl, ha, hp⟩ := exists_parts h
  have hch : (C.chain M iv (k + 1) a).length = n * (k + 1) := length_chain hiv ha
  have hfilled := length_filled (M := M) hp ht
  rw [steal_append hiv ha hp ht]
  generalize hcarry : (C.chain M iv (k + 1) a).drop (n * k) = c
  have hc : c.length = n := hcarry ▸ length_last hch
  have hmasked := (M.length_words (hfilled.trans hc.symm)).trans hfilled
  have hu := length_init hch
  have hq : (c.take t).length = t := List.length_take_of_le (hc.symm ▸ ht)
  -- the filling masks nothing, so the decrypted block ends as the block before it
  have hx : M.words (p ++ List.replicate (n - t) M.zero) c = M.words p (c.take t) ++ c.drop t := by
    have hzeros := M.words_zeros (c.drop t)
    rw [List.length_drop, hc] at hzeros
    nth_rewrite 1 [← List.take_append_drop t c]
    rw [M.words_append (hp.trans hq.symm), hzeros]
  have hwords : (M.words p (c.take t)).length = t := (M.length_words (hp.trans hq.symm)).trans hp
  rw [unsteal_append hu (C.length_enc _ hmasked) hq, C.dec_enc _ hmasked, hx, List.drop_left' hwords,
    List.take_left' hwords, M.words_words (hp.trans hq.symm), List.take_append_drop, ← hcarry,
    List.take_append_drop, unchain_chain hiv ha]

/-- **Stealing again** what was unstolen. -/
theorem steal_unsteal (hiv : iv.length = n) (h : l.length = n * (k + 1) + t) (ht : t ≤ n) :
    C.steal M iv k t (C.unsteal M iv k t l) = l := by
  obtain ⟨a, q, rfl, ha, hq⟩ := exists_parts h
  obtain ⟨u, e, rfl, hu, he⟩ : ∃ u e, a = u ++ e ∧ u.length = n * k ∧ e.length = n :=
    ⟨_, _, (List.take_append_drop (n * k) a).symm, length_init ha, length_last ha⟩
  have hdec := C.length_dec _ he
  have hblocks := length_blocks hu hdec hq ht
  have hpart : ((C.dec e).take t).length = q.length := by rw [List.length_take, hdec, hq]; omega
  have hwords : (M.words ((C.dec e).take t) q).length = t := (M.length_words hpart).trans (hpart.trans hq)
  have hx : M.words (M.words ((C.dec e).take t) q ++ List.replicate (n - t) M.zero) (q ++ (C.dec e).drop t) =
      C.dec e := by
    have hzeros := M.words_zeros ((C.dec e).drop t)
    rw [List.length_drop, hdec] at hzeros
    rw [M.words_append (hwords.trans hq.symm), M.words_words hpart, hzeros, List.take_append_drop]
  rw [unsteal_append hu he hq, steal_append hiv (length_unchain hiv hblocks) hwords ht,
    chain_unchain hiv hblocks, List.take_left' hu, List.drop_left' hu, hx, C.enc_dec _ he, List.take_left' hq]

end BlockCipher
