import Mathlib.Data.List.Basic

/-!
# Ordered forests

A forest of tagged branches and leaves, each with what comes after it at its side (`content` below, `rest`
behind).  `retag` rewrites its tags from the top down, with a state that a branch passes to what is below it
and not to what is behind it.  `tokens` writes a forest as a list that opens and closes its branches, from
which it can be read again (`tokens_inj`).
-/

/-- An ordered forest: branches with tags, and leaves. -/
inductive Forest (τ α : Type*)
  | nil
  | branch (tag : τ) (content rest : Forest τ α)
  | leaf (a : α) (rest : Forest τ α)
  deriving DecidableEq

/-- One token of a forest.  What closes a branch shows its name only. -/
inductive Forest.Token (τ α ν : Type*)
  | opening (tag : τ)
  | leaf (a : α)
  | closing (name : ν)

namespace Forest

variable {τ τ' τ'' α ν σ : Type*}

/-- The forest with other tags. -/
def map (g : τ → τ') : Forest τ α → Forest τ' α
  | nil => nil
  | branch tag content rest => branch (g tag) (content.map g) (rest.map g)
  | leaf a rest => leaf a (rest.map g)

/-- The tags rewritten from the top down. -/
def retag (step : σ → τ → σ × τ') : σ → Forest τ α → Forest τ' α
  | _, nil => nil
  | s, branch tag content rest =>
      branch (step s tag).2 (content.retag step (step s tag).1) (rest.retag step s)
  | s, leaf a rest => leaf a (rest.retag step s)

def tokens (name : τ → ν) : Forest τ α → List (Token τ α ν)
  | nil => []
  | branch tag content rest =>
      .opening tag :: (content.tokens name ++ .closing (name tag) :: rest.tokens name)
  | leaf a rest => .leaf a :: rest.tokens name

/-- The branches at the top, with what is below them. -/
def branches : Forest τ α → List (τ × Forest τ α)
  | nil => []
  | branch tag content rest => (tag, content) :: rest.branches
  | leaf _ rest => rest.branches

def leaves : Forest τ α → List α
  | nil => []
  | branch _ _ rest => rest.leaves
  | leaf a rest => a :: rest.leaves

@[simp] lemma leaves_foldr_leaf (l : List α) (rest : Forest τ α) :
    (l.foldr leaf rest).leaves = l ++ rest.leaves := by
  induction l with
  | nil => rfl
  | cons a l ih => rw [List.foldr_cons, leaves, ih, List.cons_append]

lemma map_map (g : τ → τ') (g' : τ' → τ'') (f : Forest τ α) : (f.map g).map g' = f.map (g' ∘ g) := by
  induction f with
  | nil => rfl
  | branch tag content rest ihc ihr => rw [map, map, map, ihc, ihr, Function.comp_apply]
  | leaf a rest ih => rw [map, map, map, ih]

variable {step : σ → τ → σ × τ'} {f f' : Forest τ α} {g : τ → τ''}

lemma retag_retag {back : σ → τ' → σ × τ''}
    (h : ∀ s tag, back s (step s tag).2 = ((step s tag).1, g tag)) (s : σ) (f : Forest τ α) :
    (f.retag step s).retag back s = f.map g := by
  induction f generalizing s with
  | nil => rfl
  | branch tag content rest ihc ihr => rw [retag, retag, map, h, ihc, ihr]
  | leaf a rest ih => rw [retag, retag, map, ih]

lemma retag_congr (h : ∀ s tag tag', g tag = g tag' → step s tag = step s tag') (s : σ)
    (heq : f.map g = f'.map g) : f.retag step s = f'.retag step s := by
  induction f generalizing s f' with
  | nil =>
      cases f' with
      | nil => rfl
      | branch => cases heq
      | leaf => cases heq
  | branch tag content rest ihc ihr =>
      cases f' with
      | nil => cases heq
      | leaf => cases heq
      | branch tag' content' rest' =>
          obtain ⟨htag, hcontent, hrest⟩ := branch.inj heq
          rw [retag, retag, h s tag tag' htag, ihc _ hcontent, ihr _ hrest]
  | leaf a rest ih =>
      cases f' with
      | nil => cases heq
      | branch => cases heq
      | leaf a' rest' =>
          obtain ⟨rfl, hrest⟩ := leaf.inj heq
          rw [retag, retag, ih _ hrest]

/-- What may follow the tokens of a forest: nothing, or the end of the branch it is below. -/
def Ends : List (Token τ α ν) → Prop
  | [] => True
  | .closing _ :: _ => True
  | _ => False

/-- **A forest is read from its tokens.** -/
theorem tokens_inj {name : τ → ν} {s t : List (Token τ α ν)} (hs : Ends s) (ht : Ends t)
    (h : f.tokens name ++ s = f'.tokens name ++ t) : f = f' ∧ s = t := by
  induction f generalizing f' s t with
  | nil =>
      cases f' with
      | nil => exact ⟨rfl, h⟩
      | branch tag content rest =>
          rw [tokens, List.nil_append, tokens, List.cons_append] at h
          subst h
          exact absurd hs id
      | leaf a rest =>
          rw [tokens, List.nil_append, tokens, List.cons_append] at h
          subst h
          exact absurd hs id
  | branch tag content rest ihc ihr =>
      cases f' with
      | nil =>
          rw [tokens, tokens, List.nil_append, List.cons_append] at h
          subst h
          exact absurd ht id
      | leaf a rest' =>
          rw [tokens, tokens, List.cons_append, List.cons_append] at h
          cases (List.cons.inj h).1
      | branch tag' content' rest' =>
          rw [tokens, tokens, List.cons_append, List.cons_append, List.append_assoc, List.append_assoc] at h
          obtain ⟨hopen, htail⟩ := List.cons.inj h
          obtain rfl := Token.opening.inj hopen
          obtain ⟨rfl, hclose⟩ := ihc (s := .closing _ :: _) (t := .closing _ :: _) trivial trivial htail
          obtain ⟨rfl, hst⟩ := ihr hs ht (List.cons.inj hclose).2
          exact ⟨rfl, hst⟩
  | leaf a rest ih =>
      cases f' with
      | nil =>
          rw [tokens, tokens, List.nil_append, List.cons_append] at h
          subst h
          exact absurd ht id
      | branch tag content rest' =>
          rw [tokens, tokens, List.cons_append, List.cons_append] at h
          cases (List.cons.inj h).1
      | leaf a' rest' =>
          rw [tokens, tokens, List.cons_append, List.cons_append] at h
          obtain ⟨hleaf, htail⟩ := List.cons.inj h
          obtain rfl := Token.leaf.inj hleaf
          obtain ⟨rfl, hst⟩ := ih hs ht htail
          exact ⟨rfl, hst⟩

end Forest
