import Mathlib.Data.List.Sort

/-!
# Keyset pagination

Rows in a strict order of their positions are read page by page.  A page is asked for one row longer
than it is, to see whether more rows follow; if so it ends with a bound taken from its last row, and the
next page is what comes after that bound.

The bound is computed from the row by other means than the position (`cut`), so the two may differ.
`follow_iff` says when following the pages to the end gives all rows in their order: exactly when, for
each row that ends a page with more rows behind it, the rows after its bound are the rows after it.
-/

namespace Keyset

variable {α κ : Type*} (pos : α → κ) (lt : κ → κ → Prop) [DecidableRel lt]

/-- The rows that come after a bound. -/
def after (rows : List α) : Option κ → List α
  | none => rows
  | some b => rows.filter fun x => lt b (pos x)

/-- Pages followed from a bound to the last one, all their rows together; `none` where a page has no
bound, or there are more pages than the fuel allows. -/
def follow (cut : α → Option κ) (limit : ℕ) (rows : List α) : ℕ → Option κ → Option (List α)
  | 0, _ => none
  | fuel + 1, bound =>
      let found := (after pos lt rows bound).take (limit + 1)
      if limit < found.length then
        ((found.take limit).getLast?.bind cut).bind fun b =>
          (follow cut limit rows fuel (some b)).map (found.take limit ++ ·)
      else some found

/-- The rows after the bound of a row are the rows after the row. -/
def Cuts (cut : α → Option κ) (rows : List α) (r : α) : Prop :=
  ∃ b, cut r = some b ∧ ∀ x ∈ rows, lt b (pos x) ↔ lt (pos r) (pos x)

/-- A row that ends a page with more rows behind it. -/
def EndsPage (limit : ℕ) (rows : List α) (r : α) : Prop :=
  ∃ front back, rows = front ++ r :: back ∧ back ≠ [] ∧ limit ∣ front.length + 1

section Order

variable {pos lt} [IsStrictOrder κ lt] {cut : α → Option κ} {limit : ℕ} {rows : List α}

omit [IsStrictOrder κ lt] in
lemma follow_head {fuel : ℕ} {bound : Option κ} {out : List α} (hlimit : 0 < limit)
    (h : follow pos lt cut limit rows fuel bound = some out) :
    out.head? = (after pos lt rows bound).head? := by
  cases fuel with
  | zero => cases h
  | succ fuel =>
      rw [follow] at h
      split_ifs at h with hmore
      · obtain ⟨b, -, h⟩ := Option.bind_eq_some_iff.mp h
        obtain ⟨more, -, rfl⟩ := Option.map_eq_some_iff.mp h
        obtain ⟨limit, rfl⟩ : ∃ n, limit = n + 1 := ⟨limit - 1, by omega⟩
        cases hrows : after pos lt rows bound with
        | nil => simp [hrows] at hmore
        | cons x xs => rfl
      · obtain rfl := Option.some.inj h
        cases after pos lt rows bound <;> rfl

lemma cuts_of_head {front back : List α} {r y : α} {b : κ}
    (hsorted : rows.Pairwise fun x y => lt (pos x) (pos y)) (hrows : rows = front ++ r :: y :: back)
    (hhead : (after pos lt rows (some b)).head? = some y) :
    ∀ x ∈ rows, lt b (pos x) ↔ lt (pos r) (pos x) := by
  have hy : lt b (pos y) := by
    have hmem : y ∈ after pos lt rows (some b) := List.mem_of_mem_head? hhead
    exact of_decide_eq_true (List.mem_filter.mp hmem).2
  have hsplit := hrows ▸ hsorted
  obtain ⟨-, hback, hfront⟩ := List.pairwise_append.mp hsplit
  obtain ⟨hr, hback⟩ := List.pairwise_cons.mp hback
  have hry : lt (pos r) (pos y) := hr y List.mem_cons_self
  intro x hx
  constructor
  · intro hbx
    have hmem : x ∈ after pos lt rows (some b) := List.mem_filter.mpr ⟨hx, decide_eq_true hbx⟩
    obtain ⟨rest, hrest⟩ := List.head?_eq_some_iff.mp hhead
    rw [hrest] at hmem
    rcases List.mem_cons.mp hmem with rfl | hmem
    · exact hry
    · have hpair : (after pos lt rows (some b)).Pairwise fun x y => lt (pos x) (pos y) :=
        hsorted.filter _
      rw [hrest] at hpair
      exact trans_of lt hry ((List.pairwise_cons.mp hpair).1 x hmem)
  · intro hrx
    rw [hrows, List.mem_append, List.mem_cons, List.mem_cons] at hx
    rcases hx with hx | rfl | rfl | hx
    · exact absurd (trans_of lt hrx (hfront x hx r List.mem_cons_self)) (irrefl _)
    · exact absurd hrx (irrefl _)
    · exact hy
    · exact trans_of lt hy ((List.pairwise_cons.mp hback).1 x hx)

lemma filter_after {front back : List α} {r : α}
    (hsorted : (front ++ r :: back).Pairwise fun x y => lt (pos x) (pos y)) :
    (front ++ r :: back).filter (fun x => lt (pos r) (pos x)) = back := by
  obtain ⟨-, hback, hfront⟩ := List.pairwise_append.mp hsorted
  have hr := (List.pairwise_cons.mp hback).1
  rw [List.filter_append, List.filter_cons_of_neg (by simpa using irrefl (r := lt) (pos r)),
    List.filter_eq_nil_iff.mpr, List.filter_eq_self.mpr, List.nil_append]
  · exact fun x hx => decide_eq_true (hr x hx)
  · intro x hx hrx
    exact irrefl (r := lt) _ (trans_of lt (of_decide_eq_true hrx) (hfront x hx r List.mem_cons_self))

lemma endsPage_iff {left front back : List α} {r r' : α} (hleft : left = front ++ r :: back)
    (hlimit : front.length + 1 = limit) (hback : back ≠ []) :
    EndsPage limit left r' ↔ r' = r ∨ EndsPage limit back r' := by
  subst hlimit
  constructor
  · rintro ⟨front', back', hsplit, hback', m, hm⟩
    rw [hleft] at hsplit
    rcases List.append_eq_append_iff.mp hsplit with ⟨mid, hfront, hmid⟩ | ⟨mid, hfront, hmid⟩
    · cases mid with
      | nil => exact .inl (List.cons_eq_cons.mp hmid).1.symm
      | cons x mid =>
          obtain ⟨rfl, hrest⟩ := List.cons_eq_cons.mp hmid
          refine .inr ⟨mid, back', hrest, hback', ?_⟩
          rw [hfront, List.length_append, List.length_cons] at hm
          have hdvd : front.length + 1 ∣ (front.length + 1) + (mid.length + 1) := ⟨m, by omega⟩
          exact (Nat.dvd_add_right (Nat.dvd_refl _)).mp hdvd
    · -- the other row stands before the end of the first page
      have hle : front.length + 1 ≤ front'.length + 1 := Nat.le_of_dvd (Nat.succ_pos _) ⟨m, hm⟩
      rw [hfront, List.length_append] at hle
      obtain rfl : mid = [] := List.length_eq_zero_iff.mp (by omega)
      exact .inl (List.cons_eq_cons.mp hmid).1
  · rintro (rfl | ⟨front', back', rfl, hback', hdvd⟩)
    · exact ⟨front, back, hleft, hback, Nat.dvd_refl _⟩
    · refine ⟨front ++ r :: front', back', by simp [hleft], hback', ?_⟩
      have hlength : (front ++ r :: front').length + 1 = (front.length + 1) + (front'.length + 1) := by
        simp
        omega
      rw [hlength]
      exact (Nat.dvd_add_right (Nat.dvd_refl _)).mpr hdvd

lemma exists_page {left : List α} (hlimit : 0 < limit) (hmore : limit < left.length) :
    ∃ front r back, left = front ++ r :: back ∧ front.length + 1 = limit ∧ back ≠ [] := by
  have hlast : limit - 1 < left.length := by omega
  refine ⟨left.take (limit - 1), left[limit - 1], left.drop (limit - 1 + 1), by simp, ?_, ?_⟩
  · rw [List.length_take]
    omega
  · rw [ne_eq, List.drop_eq_nil_iff]
    omega

omit [IsStrictOrder κ lt] in
lemma follow_page {left front back : List α} {r : α} {bound : Option κ}
    (hafter : after pos lt rows bound = left) (hleft : left = front ++ r :: back)
    (hlimit : front.length + 1 = limit) (hback : back ≠ []) :
    (∃ fuel, follow pos lt cut limit rows fuel bound = some left) ↔
      ∃ b, cut r = some b ∧ ∃ fuel, follow pos lt cut limit rows fuel (some b) = some back := by
  subst hlimit
  have hpage : left = (front ++ [r]) ++ back := by simp [hleft]
  have htake : left.take (front.length + 1) = front ++ [r] := by
    rw [hpage, List.take_append_of_le_length (by simp), List.take_of_length_le (by simp)]
  have hstep : ∀ fuel, follow pos lt cut (front.length + 1) rows (fuel + 1) bound =
      (cut r).bind fun b =>
        (follow pos lt cut (front.length + 1) rows fuel (some b)).map ((front ++ [r]) ++ ·) := by
    intro fuel
    have hlong : front.length + 1 < (left.take (front.length + 1 + 1)).length := by
      have := List.length_pos_iff.mpr hback
      rw [List.length_take, hpage, List.length_append, List.length_append, List.length_singleton]
      omega
    rw [follow, hafter]
    simp only [hlong, if_true, List.take_take, Nat.min_eq_left (Nat.le_succ (front.length + 1)), htake,
      List.getLast?_append, List.getLast?_singleton, Option.some_or, Option.bind_some]
  constructor
  · rintro ⟨fuel, h⟩
    cases fuel with
    | zero => cases h
    | succ fuel =>
        rw [hstep] at h
        obtain ⟨b, hb, h⟩ := Option.bind_eq_some_iff.mp h
        obtain ⟨more, hfollow, h⟩ := Option.map_eq_some_iff.mp h
        exact ⟨b, hb, fuel, hfollow.trans (congrArg some (List.append_cancel_left (h.trans hpage)))⟩
  · rintro ⟨b, hb, fuel, hfollow⟩
    exact ⟨fuel + 1, by rw [hstep, hb, Option.bind_some, hfollow, Option.map_some, hpage]⟩

lemma follow_left_iff (hsorted : rows.Pairwise fun x y => lt (pos x) (pos y)) (hlimit : 0 < limit) :
    ∀ (n : ℕ) {done left : List α} {bound : Option κ}, left.length ≤ n → rows = done ++ left →
      after pos lt rows bound = left →
      ((∃ fuel, follow pos lt cut limit rows fuel bound = some left) ↔
        ∀ r, EndsPage limit left r → Cuts pos lt cut rows r) := by
  intro n
  induction n with
  | zero =>
      intro done left bound hn hrows hafter
      obtain rfl : left = [] := List.length_eq_zero_iff.mp (by omega)
      refine iff_of_true ⟨1, by simp [follow, hafter]⟩ ?_
      rintro r ⟨front, back, h, -, -⟩
      simp at h
  | succ n ih =>
      intro done left bound hn hrows hafter
      by_cases hmore : limit < left.length
      · obtain ⟨front, r, back, hleft, hlength, hback⟩ := exists_page hlimit hmore
        have hrows' : rows = (done ++ front) ++ r :: back := by
          rw [List.append_assoc, ← hleft]
          exact hrows
        have hnext : ∀ {b}, (∀ x ∈ rows, lt b (pos x) ↔ lt (pos r) (pos x)) →
            ((∃ fuel, follow pos lt cut limit rows fuel (some b) = some back) ↔
              ∀ r', EndsPage limit back r' → Cuts pos lt cut rows r') := by
          intro b hb
          have hrest : after pos lt rows (some b) = back := by
            have hfilter := filter_after (hrows' ▸ hsorted)
            rw [← hrows'] at hfilter
            rw [after, ← hfilter]
            exact List.filter_congr fun x hx => by simp [hb x hx]
          have hdone : rows = (done ++ front ++ [r]) ++ back := by simp [hrows']
          refine ih ?_ hdone hrest
          rw [hleft, List.length_append, List.length_cons] at hn
          omega
        rw [follow_page hafter hleft hlength hback]
        constructor
        · rintro ⟨b, hb, fuel, hfollow⟩ r' hr'
          obtain ⟨y, back', hy⟩ := List.exists_cons_of_ne_nil hback
          have hhead := follow_head hlimit hfollow
          rw [hy] at hhead
          have hcuts := cuts_of_head hsorted (hy ▸ hrows') hhead.symm
          rcases (endsPage_iff hleft hlength hback).mp hr' with rfl | hr'
          · exact ⟨b, hb, hcuts⟩
          · exact (hnext hcuts).mp ⟨fuel, hfollow⟩ r' hr'
        · intro h
          obtain ⟨b, hb, hcuts⟩ := h r ((endsPage_iff hleft hlength hback).mpr (.inl rfl))
          exact ⟨b, hb, (hnext hcuts).mpr fun r' hr' =>
            h r' ((endsPage_iff hleft hlength hback).mpr (.inr hr'))⟩
      · -- one page holds them all, so no row ends a page with more behind it
        refine iff_of_true ⟨1, ?_⟩ ?_
        · have hshort : left.take (limit + 1) = left := List.take_of_length_le (by omega)
          simp [follow, hafter, hshort, hmore]
        · rintro r ⟨front, back, rfl, hback, hdvd⟩
          have hpos : 0 < back.length := List.length_pos_iff.mpr hback
          have hle := Nat.le_of_dvd (Nat.succ_pos _) hdvd
          rw [List.length_append, List.length_cons] at hmore
          omega

/-- **Following pages.**  From the first page to the last all rows are read, each once and in their order,
exactly when the bound of each row that ends a page with more rows behind it is a right one. -/
theorem follow_iff (hsorted : rows.Pairwise fun x y => lt (pos x) (pos y)) (hlimit : 0 < limit) :
    (∃ fuel, follow pos lt cut limit rows fuel none = some rows) ↔
      ∀ r, EndsPage limit rows r → Cuts pos lt cut rows r :=
  follow_left_iff hsorted hlimit rows.length (Nat.le_refl _) (List.nil_append rows).symm rfl

end Order

end Keyset
