import Mathlib.Data.List.Basic

/-!
# Codes that are read from the front

A code writes letters as words over another alphabet.  It `Reads` when a word can be told from whatever
follows it, and then so can a list of letters, up to a stop that no word begins with (`flatMap_stop`) or up
to the end (`flatMap_inj`).
-/

namespace PrefixCode

variable {α β : Type*}

/-- No word begins another: what follows a word does not matter. -/
def Reads (valid : α → Prop) (code : α → List β) : Prop :=
  ∀ a b, valid a → valid b → ∀ s t, code a ++ s = code b ++ t → a = b ∧ s = t

lemma append_stop {stop : β → Bool} {l l' s t : List β} {a b : β} (hl : ∀ c ∈ l, stop c = false)
    (hl' : ∀ c ∈ l', stop c = false) (ha : stop a = true) (hb : stop b = true)
    (h : l ++ a :: s = l' ++ b :: t) : l = l' ∧ a = b ∧ s = t := by
  induction l generalizing l' with
  | nil =>
      cases l' with
      | nil => exact ⟨rfl, List.cons.inj h⟩
      | cons c l' =>
          obtain ⟨rfl, -⟩ := List.cons.inj h
          rw [hl' a List.mem_cons_self] at ha
          cases ha
  | cons c l ih =>
      cases l' with
      | nil =>
          obtain ⟨rfl, -⟩ := List.cons.inj h
          rw [hl c List.mem_cons_self] at hb
          cases hb
      | cons c' l' =>
          obtain ⟨rfl, hrest⟩ := List.cons.inj h
          obtain ⟨rfl, hab⟩ := ih (fun d hd => hl d (List.mem_cons_of_mem _ hd))
            (fun d hd => hl' d (List.mem_cons_of_mem _ hd)) hrest
          exact ⟨rfl, hab⟩

variable {valid : α → Prop} {code : α → List β}

lemma Reads.of_read (read : List β → Option (α × List β))
    (h : ∀ a, valid a → ∀ s, read (code a ++ s) = some (a, s)) : Reads valid code := by
  intro a b ha hb s t heq
  have hread := h a ha s
  rw [heq, h b hb t] at hread
  obtain ⟨rfl, rfl⟩ := Prod.mk.inj (Option.some.inj hread)
  exact ⟨rfl, rfl⟩

/-- **Words up to a stop.**  No word begins with it. -/
theorem Reads.flatMap_stop (h : Reads valid code) {stop : β}
    (hstop : ∀ a, valid a → ∀ s t, code a ++ s ≠ stop :: t) {l l' : List α} {s t : List β}
    (hl : ∀ a ∈ l, valid a) (hl' : ∀ a ∈ l', valid a)
    (heq : l.flatMap code ++ stop :: s = l'.flatMap code ++ stop :: t) : l = l' ∧ s = t := by
  induction l generalizing l' with
  | nil =>
      cases l' with
      | nil => exact ⟨rfl, (List.cons.inj heq).2⟩
      | cons b l' =>
          rw [List.flatMap_cons, List.append_assoc] at heq
          exact absurd heq.symm (hstop b (hl' b List.mem_cons_self) _ _)
  | cons a l ih =>
      cases l' with
      | nil =>
          rw [List.flatMap_cons, List.append_assoc] at heq
          exact absurd heq (hstop a (hl a List.mem_cons_self) _ _)
      | cons b l' =>
          rw [List.flatMap_cons, List.flatMap_cons, List.append_assoc, List.append_assoc] at heq
          obtain ⟨rfl, hrest⟩ := h a b (hl a List.mem_cons_self) (hl' b List.mem_cons_self) _ _ heq
          obtain ⟨rfl, hst⟩ := ih (fun c hc => hl c (List.mem_cons_of_mem _ hc))
            (fun c hc => hl' c (List.mem_cons_of_mem _ hc)) hrest
          exact ⟨rfl, hst⟩

/-- **Words up to the end.**  No word is empty. -/
theorem Reads.flatMap_inj (h : Reads valid code) (hne : ∀ a, valid a → code a ≠ []) {l l' : List α}
    (hl : ∀ a ∈ l, valid a) (hl' : ∀ a ∈ l', valid a) (heq : l.flatMap code = l'.flatMap code) :
    l = l' := by
  induction l generalizing l' with
  | nil =>
      cases l' with
      | nil => rfl
      | cons b l' =>
          rw [List.flatMap_cons] at heq
          exact absurd (List.append_eq_nil_iff.mp heq.symm).1 (hne b (hl' b List.mem_cons_self))
  | cons a l ih =>
      cases l' with
      | nil =>
          rw [List.flatMap_cons] at heq
          exact absurd (List.append_eq_nil_iff.mp heq).1 (hne a (hl a List.mem_cons_self))
      | cons b l' =>
          rw [List.flatMap_cons, List.flatMap_cons] at heq
          obtain ⟨rfl, hrest⟩ := h a b (hl a List.mem_cons_self) (hl' b List.mem_cons_self) _ _ heq
          rw [ih (fun c hc => hl c (List.mem_cons_of_mem _ hc))
            (fun c hc => hl' c (List.mem_cons_of_mem _ hc)) hrest]

end PrefixCode
