import Ridm.Lib.Drawn
import Ridm.Passwords.Model

/-!
# The password history

`set_password` compares a new password with the current hash and with the table `password_history`, which
it read in one transaction, and goes on in another only if the row's hash is still the one it read.  Every
hash is new, by its salt, so an equal hash means that nothing was set in between (`Drawn`), and the table
holds the passwords before the current one, as many as the rule asks for (`Linked`).

A sign-in that replaces a weak hash writes over whatever hash the row has by then.  If that is of another
password, the user has the old one again, and the one in between was never put into the table
(`password_in_between_accepted`).  `history_kept` holds of the runs without such a write, and of all runs
where only the current password counts.
-/

namespace Ridm.Passwords

/-- A stored hash is of a password: it verifies this one alone. -/
def Backend.Of (B : Backend) (hash password : String) : Prop :=
  ∀ q, (B.verify q hash).toOption.any PasswordVerification.valid = decide (q = password)

/-- What is relied on of the hasher. -/
structure Backend.Lawful (B : Backend) : Prop where
  of_hash : ∀ password salt, B.Of (B.hash password salt) password
  salt_inj : ∀ {p q n m}, B.hash p n = B.hash q m → n = m

/-- What calls share, with the passwords the user had, the newest first, and the number of salts drawn. -/
structure Chronicle where
  store : Store
  had : List String
  draws : ℕ

/-- The passwords the user had, after a step of a call.  A hash replaced by one of the same password is none
more. -/
def note (had : List String) : Pc → Pc → List String
  | .hashed password _ _ _ _, .committed _ => password :: had
  | .upgrading password _ _, _ => if had.head? = some password then had else password :: had
  | _, _ => had

section

variable (B : Backend) (policy : PasswordPolicy)

/-- A step of a call, which draws a salt of its own. -/
def actNoted (g : Chronicle) (l : Pc) : Option (Chronicle × Pc) :=
  (act B policy g.store g.draws l).map fun r => (⟨r.1, note g.had l r.2, g.draws + 1⟩, r.2)

/-- Any number of changes and sign-ins of one user. -/
def chronicled (ι : Type) : Calls ι Chronicle Pc Unit ℕ where
  act _ g l _ := actNoted B policy g l
  env g d := some { g with store := { g.store with now := g.store.now + d } }

variable {ι : Type}

/-- A `set_password` that checks the policy and goes through sets none of the last passwords. -/
def Differs (w : Pool ι Chronicle Pc) (a : Pick ι Unit ℕ) : Prop :=
  ∀ i password opts user hash expiresAt g, a = .call i () →
    w.calls i = .hashed password opts user hash expiresAt →
    actNoted B policy w.shared (w.calls i) = some (g, .committed password) → opts.skipPolicy = false →
      password ∉ w.shared.had.take policy.history

/-- The write of a call, if it replaces a hash, is of the current password. -/
def Chronicle.Keeps (g : Chronicle) : Pc → Prop
  | .upgrading password _ _ => g.had.head? = some password
  | _ => True

instance (g : Chronicle) : DecidablePred g.Keeps
  | .upgrading password _ _ => inferInstanceAs (Decidable (g.had.head? = some password))
  | .idle _ | .checking _ _ _ _ | .hashed _ _ _ _ _ | .committed _ | .changed _ | .inDirectory
  | .loaded _ _ | .verified _ _ | .outcome _ | .failed _ => .isTrue trivial

/-- **No sign-in brings back another password**, where more than the current one counts. -/
def RehashesKept (w : Pool ι Chronicle Pc) : Pick ι Unit ℕ → Prop
  | .call i _ => policy.history = 1 ∨ w.shared.Keeps (w.calls i)
  | .env _ => True

instance (w : Pool ι Chronicle Pc) : DecidablePred (RehashesKept policy w)
  | .call i _ => inferInstanceAs (Decidable (policy.history = 1 ∨ w.shared.Keeps (w.calls i)))
  | .env _ => .isTrue trivial

/-- The row's hash is of the current password, the table's are of those before it. -/
structure Linked (g : Chronicle) : Prop where
  row : List.Forall₂ B.Of g.store.user.passwordHash.toList (g.had.take 1)
  table : List.Forall₂ B.Of g.store.history (g.had.tail.take (policy.history - 1))

/-- Before anything is called. -/
structure Chronicle.Started (w : Pool ι Chronicle Pc) : Prop where
  linked : Linked B policy w.shared
  old : ∀ password n, w.shared.draws ≤ n → w.shared.store.user.passwordHash ≠ some (B.hash password n)
  calls : ∀ i, ∃ op, w.calls i = .idle op

/-! ## What one step does -/

def Pc.readHash : Pc → Option String
  | .checking _ _ user _ | .hashed _ _ user _ _ => user.passwordHash
  | _ => none

/-- The hash a call has made. -/
def Pc.inHand : Pc → Option String
  | .hashed _ _ _ hash _ | .upgrading _ _ hash => some hash
  | _ => none

/-- A call that holds no hash and compares with none. -/
def Pc.atRest : Pc → Bool
  | .checking .. | .hashed .. | .upgrading .. => false
  | _ => true

/-- What a step of a call may do. -/
inductive Moves (g : Store) (salt : ℕ) : Pc → Store → Pc → Prop
  | rests {l l' : Pc} (hrest : l'.atRest = true) (hnote : ∀ had, note had l l' = had) : Moves g salt l g l'
  | reads (password : String) (opts : SetPasswordOptions) : Moves g salt (.idle (.setPassword password opts)) g
      (.checking password opts g.user (readHistory policy opts g.history))
  | passes {password : String} {opts : SetPasswordOptions} {user : User} {history : List String}
      {expiresAt : Option Instant} (hcheck : checkNew B policy password opts user history = .ok ()) :
      Moves g salt (.checking password opts user history) g
        (.hashed password opts user (B.hash password salt) expiresAt)
  | hashes (password : String) (user : User) : Moves g salt (.verified password user) g
      (.upgrading password user (B.hash password salt))
  | commits {password : String} {opts : SetPasswordOptions} {user : User} {hash : String}
      {expiresAt : Option Instant} {g' : Store} (hsame : g.user.passwordHash = user.passwordHash)
      (hrow : g'.user.passwordHash = some hash)
      (hhistory : g'.history = match user.passwordHash with
        | some old => if 1 < policy.history then (old :: g.history).take (policy.history - 1) else g.history
        | none => g.history) :
      Moves g salt (.hashed password opts user hash expiresAt) g' (.committed password)
  | upgrades {password : String} {user : User} {hash : String} {g' : Store} {o : VerifyOutcome}
      (hrow : g'.user.passwordHash = some hash) (hhistory : g'.history = g.history) :
      Moves g salt (.upgrading password user hash) g' (.outcome o)

variable {B policy} {g g' : Store} {l l' : Pc} {salt : ℕ}

lemma verifyLoaded_rests (B : Backend) (policy : PasswordPolicy) (password : String) (user : User) (now : Instant) :
    (verifyLoaded B policy password user now).atRest = true := by
  unfold verifyLoaded
  split
  · split <;> rfl
  · split
    · rfl
    · rfl
    · split_ifs <;> rfl

lemma Pc.atRest.holds_none (h : l.atRest = true) : l.readHash = none ∧ l.inHand = none := by
  cases l with
  | checking password opts user history | hashed password opts user hash expiresAt
  | upgrading password user hash => cases h
  | _ => exact ⟨rfl, rfl⟩

lemma act_moves (h : act B policy g salt l = some (g', l')) : Moves B policy g salt l g' l' := by
  cases l with
  | idle op =>
      cases op with
      | setPassword password opts =>
          simp only [act] at h
          split at h
          · cases h
            exact .rests rfl fun _ => rfl
          · cases h
            exact .reads password opts
          · cases h
            exact .rests rfl fun _ => rfl
      | signIn password =>
          cases h
          exact .rests rfl fun _ => rfl
  | checking password opts user history =>
      simp only [act] at h
      split at h
      · next hcheck =>
          cases h
          exact .passes hcheck
      · cases h
        exact .rests rfl fun _ => rfl
  | hashed password opts user hash expiresAt =>
      simp only [act] at h
      split at h
      · next g'' hcommit =>
          cases h
          simp only [commitPassword, bind_eq_ok] at hcommit
          obtain ⟨_, hsame, hcommit⟩ := hcommit
          cases hcommit
          exact .commits (of_decide_eq_true (require_eq_ok.mp hsame)) rfl rfl
      · cases h
        exact .rests rfl fun _ => rfl
  | committed password =>
      cases h
      exact .rests rfl fun _ => rfl
  | loaded password user =>
      cases h
      exact .rests (verifyLoaded_rests B policy password user g.now) fun _ => rfl
  | verified password user =>
      cases h
      exact .hashes password user
  | upgrading password user hash =>
      cases h
      exact .upgrades rfl rfl
  | changed password | inDirectory | outcome o | failed e => cases h

/-! ## Hashes in hand -/

/-- Not a hash that is still to be made. -/
def Past (B : Backend) (draws : ℕ) (hash : String) : Prop := ∀ password n, draws ≤ n → hash ≠ B.hash password n

/-- In the row, or read by a call. -/
def Used (w : Pool ι Chronicle Pc) (hash : String) : Prop :=
  w.shared.store.user.passwordHash = some hash ∨ ∃ i, (w.calls i).readHash = some hash

/-- A hash in hand is nobody else's. -/
def HandsApart (B : Backend) (w : Pool ι Chronicle Pc) : Prop :=
  Drawn (Past B w.shared.draws) (Used w) fun i => (w.calls i).inHand

variable {hash : String}

lemma Past.later {n n' : ℕ} (h : Past B n hash) (hle : n ≤ n') : Past B n' hash :=
  fun password k hk => h password k (Nat.le_trans hle hk)

lemma not_past (password : String) (n : ℕ) : ¬ Past B n (B.hash password n) :=
  fun h => h password n (Nat.le_refl n) rfl

lemma past_succ (hB : B.Lawful) (password : String) (n : ℕ) : Past B (n + 1) (B.hash password n) := by
  intro q k hk heq
  have hn := hB.salt_inj heq
  omega

section

variable [DecidableEq ι] {w : Pool ι Chronicle Pc} {i j : ι} {c : Chronicle}

lemma used_next (h : Used (w.next i c l) hash) :
    c.store.user.passwordHash = some hash ∨ l.readHash = some hash ∨ Used w hash := by
  rcases h with hrow | ⟨j, hj⟩
  · exact .inl hrow
  · rcases Pool.next_read hj with ⟨-, hl⟩ | hold
    · exact .inr (.inl hl)
    · exact .inr (.inr (.inr ⟨j, hold⟩))

lemma HandsApart.stored (hw : HandsApart B w) (hhand : (w.calls i).inHand = some hash)
    (hrow : c.store.user.passwordHash = some hash) (hread : l.readHash = none) (hl : l.inHand = none)
    (hdraws : w.shared.draws ≤ c.draws) : HandsApart B (w.next i c l) := by
  refine Drawn.use hw (i := i) hhand (fun h => h.later hdraws) (fun {h} hused => ?_) fun {r h} hr => ?_
  · rcases used_next hused with hrow' | hread' | hused
    · exact .inr (Option.some.inj (hrow'.symm.trans hrow))
    · rw [hread] at hread'
      cases hread'
    · exact .inl hused
  · by_cases hri : r = i
    · rw [hri, Pool.next_self, hl] at hr
      cases hr
    · rw [Pool.next_of_ne w hri] at hr
      exact ⟨hri, hr⟩

lemma HandsApart.made (hB : B.Lawful) (hw : HandsApart B w) (password : String)
    (hrow : c.store = w.shared.store) (hread : ∀ hash, l.readHash = some hash → Used w hash)
    (hl : l.inHand = some (B.hash password w.shared.draws)) (hdraws : c.draws = w.shared.draws + 1) :
    HandsApart B (w.next i c l) := by
  refine Drawn.draw hw (i := i) (not_past password w.shared.draws) ?_ (fun h => h.later (by simp [hdraws]))
    (fun {hash} hused => ?_) fun {r hash} hr => ?_
  · show Past B c.draws _
    rw [hdraws]
    exact past_succ hB password _
  · rcases used_next hused with hrow' | hread' | hused
    · exact .inl (hrow ▸ hrow')
    · exact hread hash hread'
    · exact hused
  · rcases Pool.next_read hr with ⟨hri, hr⟩ | hr
    · rw [hl] at hr
      exact .inl ⟨hri, (Option.some.inj hr).symm⟩
    · exact .inr hr

lemma HandsApart.kept (hw : HandsApart B w) (hrow : c.store = w.shared.store)
    (hread : ∀ hash, l.readHash = some hash → Used w hash) (hl : l.inHand = none)
    (hdraws : c.draws = w.shared.draws + 1) : HandsApart B (w.next i c l) := by
  refine hw.mono (fun h => h.later (by simp [hdraws])) (fun {hash} hused => ?_) fun {r hash} hr => ?_
  · rcases used_next hused with hrow' | hread' | hused
    · exact .inl (hrow ▸ hrow')
    · exact hread hash hread'
    · exact hused
  · rcases Pool.next_read hr with ⟨-, hr⟩ | hr
    · rw [hl] at hr
      cases hr
    · exact hr

/-- **A step** keeps hashes in hand apart. -/
lemma HandsApart.step (hB : B.Lawful) (hw : HandsApart B w)
    (h : Moves B policy w.shared.store w.shared.draws (w.calls i) c.store l)
    (hdraws : c.draws = w.shared.draws + 1) : HandsApart B (w.next i c l) := by
  generalize hl : w.calls i = l₀ at h
  generalize hg : c.store = g' at h
  cases h with
  | rests hrest hnote =>
      obtain ⟨hread, hhand⟩ := Pc.atRest.holds_none hrest
      refine hw.kept hg (fun hash hread' => ?_) hhand hdraws
      rw [hread] at hread'
      cases hread'
  | reads password opts => exact hw.kept hg (fun hash hread => .inl hread) rfl hdraws
  | passes hcheck => exact hw.made hB _ hg (fun hash hread => .inr ⟨i, by rw [hl]; exact hread⟩) rfl hdraws
  | hashes password user => exact hw.made hB _ hg (fun hash hread => by cases hread) rfl hdraws
  | commits hsame hrow hhistory =>
      exact hw.stored (congrArg Pc.inHand hl) (hg ▸ hrow) rfl rfl (by omega)
  | upgrades hrow hhistory =>
      exact hw.stored (congrArg Pc.inHand hl) (hg ▸ hrow) rfl rfl (by omega)

end

/-! ## The table and the passwords -/

/-- What a call has read of the history is what the table holds, if the row has the hash it read. -/
def Current (policy : PasswordPolicy) (g : Store) (opts : SetPasswordOptions) (user : User)
    (history : List String) : Prop :=
  g.user.passwordHash = user.passwordHash → history = readHistory policy opts g.history

/-- What is known of a call. -/
def CallSound (B : Backend) (policy : PasswordPolicy) (g : Store) : Pc → Prop
  | .checking _ opts user history => Current policy g opts user history
  | .hashed password opts user hash _ => B.Of hash password ∧ ∃ history,
      Current policy g opts user history ∧ checkNew B policy password opts user history = .ok ()
  | .upgrading password _ hash => B.Of hash password
  | _ => True

/-- The invariant. -/
structure HistoryInv (B : Backend) (policy : PasswordPolicy) (w : Pool ι Chronicle Pc) : Prop where
  apart : HandsApart B w
  linked : Linked B policy w.shared
  calls : ∀ i, CallSound B policy w.shared.store (w.calls i)

lemma CallSound.overtaken (h : CallSound B policy g l) (hrow : g'.user.passwordHash = some hash)
    (hread : l.readHash ≠ some hash) : CallSound B policy g' l := by
  cases l with
  | checking password opts user history =>
      intro hsame
      exact absurd (hsame.symm.trans hrow) hread
  | hashed password opts user made expiresAt =>
      obtain ⟨hof, history, -, hcheck⟩ := h
      exact ⟨hof, history, fun hsame => absurd (hsame.symm.trans hrow) hread, hcheck⟩
  | upgrading password user made => exact h
  | _ => trivial

lemma callSound_of_atRest (h : l.atRest = true) : CallSound B policy g l := by
  cases l with
  | checking password opts user history | hashed password opts user hash expiresAt
  | upgrading password user hash => cases h
  | _ => trivial

lemma Linked.commit {c c' : Chronicle} (h : Linked B policy c) (hpos : 0 < policy.history)
    {password hash : String} (hof : B.Of hash password) (hhad : c'.had = password :: c.had)
    (hrow : c'.store.user.passwordHash = some hash)
    (hhistory : c'.store.history = match c.store.user.passwordHash with
      | some old => if 1 < policy.history then (old :: c.store.history).take (policy.history - 1)
          else c.store.history
      | none => c.store.history) : Linked B policy c' := by
  obtain ⟨hold, htable⟩ := h
  constructor
  · rw [hrow, hhad]
    exact .cons hof .nil
  · rw [hhistory, hhad, List.tail_cons]
    cases hc : c.store.user.passwordHash with
    | none =>
        rw [hc] at hold
        have hnil : c.had = [] := by
          cases hhad' : c.had with
          | nil => rfl
          | cons p rest =>
              rw [hhad'] at hold
              cases hold
        rw [hnil] at htable ⊢
        simpa using htable
    | some old =>
        rw [hc] at hold
        cases hhad' : c.had with
        | nil =>
            rw [hhad'] at hold
            cases hold
        | cons p rest =>
            rw [hhad'] at hold htable
            obtain ⟨hp, -⟩ := List.forall₂_cons.mp hold
            dsimp only
            split_ifs with hmore
            · obtain ⟨m, hm⟩ := Nat.exists_eq_add_of_lt hmore
              have hn : policy.history - 1 = m + 1 := by omega
              rw [hn] at htable ⊢
              rw [List.take_succ_cons, List.take_succ_cons]
              refine .cons hp ?_
              have htake := List.forall₂_take m htable
              rwa [List.tail_cons, List.take_take, Nat.min_eq_left (Nat.le_succ m)] at htake
            · have hn : policy.history - 1 = 0 := by omega
              rw [hn] at htable ⊢
              exact htable

lemma Linked.upgrade {c c' : Chronicle} (h : Linked B policy c) {password hash : String} (hof : B.Of hash password)
    (hkept : policy.history = 1 ∨ c.had.head? = some password)
    (hhad : c'.had = if c.had.head? = some password then c.had else password :: c.had)
    (hrow : c'.store.user.passwordHash = some hash) (hhistory : c'.store.history = c.store.history) :
    Linked B policy c' := by
  obtain ⟨hold, htable⟩ := h
  by_cases hhead : c.had.head? = some password
  · rw [if_pos hhead] at hhad
    obtain ⟨rest, hrest⟩ := List.head?_eq_some_iff.mp hhead
    constructor
    · rw [hrow, hhad, hrest]
      exact .cons hof .nil
    · rw [hhad, hhistory]
      exact htable
  · rw [if_neg hhead] at hhad
    have hone : policy.history = 1 := hkept.resolve_right hhead
    constructor
    · rw [hrow, hhad]
      exact .cons hof .nil
    · rw [hhistory, hone]
      rw [hone] at htable
      simpa using htable

lemma exists_of_forall₂ {α β : Type} {R : α → β → Prop} {as : List α} {bs : List β} {b : β}
    (h : List.Forall₂ R as bs) (hb : b ∈ bs) : ∃ a ∈ as, R a b := by
  induction h with
  | nil => cases hb
  | cons hab _ ih =>
      rcases List.mem_cons.mp hb with rfl | hb
      · exact ⟨_, List.mem_cons_self, hab⟩
      · obtain ⟨a, ha, hab⟩ := ih hb
        exact ⟨a, List.mem_cons_of_mem _ ha, hab⟩

variable {opts : SetPasswordOptions} {password : String} {n : ℕ}

lemma take_had (had : List String) (hn : 0 < n) : had.take n = had.take 1 ++ had.tail.take (n - 1) := by
  obtain ⟨m, rfl⟩ := Nat.exists_eq_succ_of_ne_zero (Nat.pos_iff_ne_zero.mp hn)
  cases had with
  | nil => simp
  | cons p rest => simp

lemma Linked.exists_hash {c : Chronicle} (h : Linked B policy c) (hpos : 0 < policy.history)
    (hmem : password ∈ c.had.take policy.history) :
    ∃ old ∈ c.store.user.passwordHash.toList ++ c.store.history, B.Of old password := by
  rw [take_had _ hpos] at hmem
  exact exists_of_forall₂ (List.rel_append h.row h.table) hmem

lemma length_table {history had : List String} (h : List.Forall₂ B.Of history (had.tail.take n)) :
    history.length ≤ n := by
  rw [h.length_eq, List.length_take]
  exact Nat.min_le_left ..

lemma readHistory_of_checks (hskip : opts.skipPolicy = false) (hpos : 0 < policy.history)
    (history : List String) : readHistory policy opts history = history.take (policy.history - 1) := by
  simp [readHistory, hskip, hpos]

lemma not_reused {user : User} {history : List String}
    (h : checkNew B policy password opts user history = .ok ()) (hskip : opts.skipPolicy = false)
    (hpos : 0 < policy.history) : reused B password (history ++ user.passwordHash.toList) = false := by
  rw [checkNew, hskip, if_neg Bool.false_ne_true] at h
  simp only [bind_eq_ok, require_eq_ok] at h
  obtain ⟨_, -, h⟩ := h
  split_ifs at h with hbreached
  · obtain ⟨_, -, h⟩ := bind_eq_ok.mp h
    simpa [hpos] using h
  · simpa [hpos] using h

section

variable {w w' : Pool ι Chronicle Pc} {i : ι} {c : Chronicle}

lemma actNoted_eq_some {c' : Chronicle} (h : actNoted B policy c l = some (c', l')) :
    ∃ g', Moves B policy c.store c.draws l g' l' ∧ c' = ⟨g', note c.had l l', c.draws + 1⟩ := by
  obtain ⟨⟨g', l''⟩, hact, heq⟩ := Option.map_eq_some_iff.mp h
  cases heq
  exact ⟨g', act_moves hact, rfl⟩

lemma HistoryInv.others (hw : HistoryInv B policy w) (hhand : (w.calls i).inHand = some hash)
    (hrow : g'.user.passwordHash = some hash) (j : ι) : CallSound B policy g' (w.calls j) :=
  (hw.calls j).overtaken hrow fun hread => hw.apart.unused hhand (.inr ⟨j, hread⟩)

variable [DecidableEq ι]

lemma HistoryInv.moved (hw : HistoryInv B policy w) (hapart : HandsApart B (w.next i c l))
    (hstore : c.store = w.shared.store) (hhad : c.had = w.shared.had)
    (hl : CallSound B policy w.shared.store l) : HistoryInv B policy (w.next i c l) where
  apart := hapart
  linked := by
    constructor
    · show List.Forall₂ B.Of c.store.user.passwordHash.toList (c.had.take 1)
      rw [hstore, hhad]
      exact hw.linked.row
    · show List.Forall₂ B.Of c.store.history (c.had.tail.take (policy.history - 1))
      rw [hstore, hhad]
      exact hw.linked.table
  calls := by
    refine Pool.next_forall (p := fun _ => CallSound B policy c.store) ?_ fun j _ => ?_
    · rw [hstore]
      exact hl
    · rw [hstore]
      exact hw.calls j

lemma HistoryInv.stored (hw : HistoryInv B policy w) (hapart : HandsApart B (w.next i c l))
    (hhand : (w.calls i).inHand = some hash) (hrow : c.store.user.passwordHash = some hash)
    (hlinked : Linked B policy c) (hl : l.atRest = true) : HistoryInv B policy (w.next i c l) where
  apart := hapart
  linked := hlinked
  calls := Pool.next_forall (p := fun _ => CallSound B policy c.store) (callSound_of_atRest hl)
    fun j _ => hw.others hhand hrow j

/-- **A step** keeps the invariant, when a hash it replaces is of the current password. -/
lemma HistoryInv.step (hB : B.Lawful) (hpos : 0 < policy.history) (hw : HistoryInv B policy w)
    (hkept : RehashesKept policy w (.call i ())) (h : actNoted B policy w.shared (w.calls i) = some (c, l)) :
    HistoryInv B policy (w.next i c l) := by
  obtain ⟨g', hmoves, rfl⟩ := actNoted_eq_some h
  have hi := hw.calls i
  have hapart := hw.apart.step (c := ⟨g', note w.shared.had (w.calls i) l, w.shared.draws + 1⟩) hB hmoves rfl
  generalize hl : w.calls i = l₀ at hmoves hapart hi ⊢
  cases hmoves with
  | rests hrest hnote => exact hw.moved hapart rfl (hnote _) (callSound_of_atRest hrest)
  | reads password opts => exact hw.moved hapart rfl rfl fun _ => rfl
  | passes hcheck => exact hw.moved hapart rfl rfl ⟨hB.of_hash _ _, _, hi, hcheck⟩
  | hashes password user => exact hw.moved hapart rfl rfl (hB.of_hash password _)
  | commits hsame hrow hhistory =>
      rw [← hsame] at hhistory
      exact hw.stored hapart (congrArg Pc.inHand hl) hrow
        (hw.linked.commit hpos hi.1 rfl hrow hhistory) rfl
  | upgrades hrow hhistory =>
      refine hw.stored hapart (congrArg Pc.inHand hl) hrow ?_ rfl
      refine hw.linked.upgrade hi ?_ rfl hrow hhistory
      rw [RehashesKept, hl] at hkept
      exact hkept

omit [DecidableEq ι] in
/-- **The new password differs** from the last ones, if the step goes through. -/
lemma HistoryInv.differs (hpos : 0 < policy.history) (hw : HistoryInv B policy w) (a : Pick ι Unit ℕ) :
    Differs B policy w a := by
  rintro i password opts user hash expiresAt c - hl hact hskip hmem
  obtain ⟨g', hmoves, -⟩ := actNoted_eq_some hact
  have hi := hw.calls i
  rw [hl] at hmoves hi
  obtain ⟨-, history, hcurrent, hcheck⟩ := hi
  cases hmoves with
  | rests hrest hnote => cases hnote []
  | commits hsame hrow hhistory =>
      have hread := hcurrent hsame
      rw [readHistory_of_checks hskip hpos, List.take_of_length_le (length_table hw.linked.table)] at hread
      have hnone := not_reused hcheck hskip hpos
      obtain ⟨old, hold, hof⟩ := hw.linked.exists_hash hpos hmem
      have hvalid : (B.verify password old).toOption.any PasswordVerification.valid = true := by
        rw [hof password]
        exact decide_eq_true rfl
      rw [reused, List.any_eq_false] at hnone
      refine hnone old ?_ hvalid
      rw [hread, ← hsame]
      exact List.mem_append.mpr (List.mem_append.mp hold).symm

omit [DecidableEq ι] in
lemma Chronicle.Started.inv (hw : Chronicle.Started B policy w) : HistoryInv B policy w where
  apart := by
    refine .of_none ?_ fun r => ?_
    · rintro hash (hrow | ⟨j, hj⟩) password n hn rfl
      · exact hw.old password n hn hrow
      · obtain ⟨op, hop⟩ := hw.calls j
        rw [hop] at hj
        cases hj
    · obtain ⟨op, hop⟩ := hw.calls r
      rw [hop]
      rfl
  linked := hw.linked
  calls i := by
    obtain ⟨op, hop⟩ := hw.calls i
    rw [hop]
    trivial

/-- **The password history rule** holds over every run of changes and sign-ins in which no sign-in brings
back another password than the current one, and over all runs where only the current password counts. -/
theorem history_kept (hB : B.Lawful) (hpos : 0 < policy.history) {as : List (Pick ι Unit ℕ)}
    (hstart : Chronicle.Started B policy w)
    (hkept : (chronicled B policy ι).machine.Meets (RehashesKept policy) w as) :
    (chronicled B policy ι).machine.Meets (Differs B policy) w as := by
  refine Machine.Meets.imp (I := HistoryInv B policy) ?_ (fun hw _ => hw.differs hpos _) hkept hstart.inv
  intro w a w' hw hC hstep
  cases a with
  | call i u =>
      obtain ⟨c, l, hact, rfl⟩ := Calls.step_call.mp hstep
      exact hw.step hB hpos hC hact
  | env d =>
      obtain ⟨c, henv, rfl⟩ := Calls.step_env.mp hstep
      cases henv
      exact ⟨hw.apart, ⟨hw.linked.row, hw.linked.table⟩, fun i => hw.calls i⟩

end

end

/-! ## The run that goes wrong -/

def markedBackend : Backend where
  hash password salt := String.ofList ('a' :: (List.replicate salt '.' ++ '#' :: password.toList))
  algorithm := "argon2id"
  verify password stored :=
    let valid : Bool := ((stored.toList.drop 1).dropWhile (· == '.')).drop 1 = password.toList
    .ok ⟨valid, valid && stored.toList.head? != some 'a'⟩
  ldapSetPassword _ := .ok false
  ldapVerifyPassword _ := .ok none
  checkPolicy _ _ := []
  checkBreached _ := .ok ()

lemma dropWhile_salt (n : ℕ) (l : List Char) :
    (List.replicate n '.' ++ '#' :: l).dropWhile (· == '.') = '#' :: l := by
  induction n with
  | zero => rfl
  | succ n ih => simp [List.replicate_succ]

lemma takeWhile_salt (n : ℕ) (l : List Char) :
    (List.replicate n '.' ++ '#' :: l).takeWhile (· == '.') = List.replicate n '.' := by
  induction n with
  | zero => rfl
  | succ n ih => simp [List.replicate_succ]

lemma lawful_markedBackend : markedBackend.Lawful where
  of_hash password salt q := by
    have hread : (((markedBackend.hash password salt).toList.drop 1).dropWhile (· == '.')).drop 1 =
        password.toList := by
      rw [markedBackend, String.toList_ofList, List.drop_succ_cons, List.drop_zero, dropWhile_salt,
        List.drop_succ_cons, List.drop_zero]
    show decide ((((markedBackend.hash password salt).toList.drop 1).dropWhile (· == '.')).drop 1 = q.toList) = _
    rw [hread, decide_eq_decide, String.toList_inj, eq_comm]
  salt_inj {p q n m} h := by
    have hchars := congrArg (fun s => (s.toList.drop 1).takeWhile (· == '.')) h
    simp only [markedBackend, String.toList_ofList, List.drop_one, List.tail_cons, takeWhile_salt] at hchars
    simpa using congrArg List.length hchars

def twoPasswords : PasswordPolicy := ⟨2, false, none⟩

def imported : Pool (Fin 3) Chronicle Pc where
  shared := ⟨⟨seconds 0, ⟨some "b#old", some "bcrypt", false, none, none⟩, [], none⟩, ["old"], 0⟩
  calls i := .idle (if i = 0 then .signIn "old" else .setPassword "new" ⟨false, false⟩)

def moves (i : Fin 3) (n : ℕ) : List (Pick (Fin 3) Unit ℕ) := List.replicate n (.call i ())

lemma started_imported : Chronicle.Started markedBackend twoPasswords imported where
  linked := by
    refine ⟨.cons (fun q => ?_) .nil, .nil⟩
    show decide ("old".toList = q.toList) = _
    rw [decide_eq_decide, String.toList_inj, eq_comm]
  old password n _ h := by
    have hchars := congrArg (fun s => s.toList.head?) (Option.some.inj h)
    simp [markedBackend] at hchars
  calls i := ⟨_, rfl⟩

/-- **The password in between is accepted.**  The sign-in has hashed the old password when the change comes
and returns; then it writes its hash, and the password just changed to is set again. -/
theorem password_in_between_accepted : markedBackend.Lawful ∧ 0 < twoPasswords.history ∧
    Chronicle.Started markedBackend twoPasswords imported ∧
    ¬ (chronicled markedBackend twoPasswords (Fin 3)).machine.Meets (Differs markedBackend twoPasswords) imported
      (moves 0 3 ++ moves 1 4 ++ moves 0 1 ++ moves 2 3) := by
  refine ⟨lawful_markedBackend, by decide, started_imported, fun hmeets => ?_⟩
  have hlast := Machine.meets_iff_splits.mp hmeets (moves 0 3 ++ moves 1 4 ++ moves 0 1 ++ moves 2 2)
    (.call 2 ()) [] _ rfl rfl
  exact hlast 2 _ _ _ _ _ _ rfl rfl rfl rfl (by decide)

/-- With the sign-in before the changes, the rule holds of both. -/
theorem history_kept_inTurn :
    (chronicled markedBackend twoPasswords (Fin 3)).machine.Meets (Differs markedBackend twoPasswords) imported
      (moves 0 4 ++ moves 1 4 ++ moves 2 2) := by
  refine history_kept lawful_markedBackend (by decide) started_imported ?_
  decide

end Ridm.Passwords
