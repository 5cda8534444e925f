import Ridm.Audit.Canonical
import Ridm.Lib.NumberedLog

/-!
# The verifier of a chain

`crates/ridm-core/src/audit_chain.rs`, second half: `Verifier` checks rows one at a time, oldest
first.  `accepted_iff` says what a list of rows must satisfy to pass: every row belongs to one
chain, has the number after its predecessor's, names its predecessor's hash, and hashes to what it
says.

The number after a row's is an `i64` addition, which wraps in a release build (`wrappingNext`): a
verifier passes a row numbered `i64::MIN` after one numbered `i64::MAX`.  Up to `i64::MAX`, where
an honest chain stays, it is the integer after it (`checkRows_wrapping`), and the checks take
that one where nothing else is said.

A head hash commits to the rows before it (`last_hash_commits`): with a hash function that has no
collision among the inputs hashed, two lists of one length that pass and end in one hash agree
row by row.  The first row is the exception.  Its `prev_hash` is taken on trust and is not framed,
so a longer or shorter one can take bytes of the row (`first_row_is_not_framed`); with a `prev_hash`
that is absent or a digest the first row agrees as well.
-/

namespace Ridm.Audit

/-- `Break`: where and why a chain stopped verifying. -/
structure Break where
  seq : ℤ
  reason : String
  deriving DecidableEq

/-- A stored row (`models::AuditEvent`): the fields the hash covers, the link and the hash. -/
structure AuditEvent extends CanonicalRow where
  prevHash : Option Bytes
  hash : Bytes
  deriving DecidableEq

/-- What a walk has read of a chain so far. -/
structure Verifier where
  chain : Option Uuid128 := none
  prev : Option (ℤ × Bytes) := none
  checked : ℕ := 0
  firstSeq : Option ℤ := none
  lastSeq : Option ℤ := none
  lastHash : Option Bytes := none
  deriving DecidableEq

namespace Verifier

/-- `Verifier::new`. -/
def new : Verifier := {}

/-- `Verifier::after`: continue after row `seq` of `chain`, whose hash is `hash`. -/
def after (chain : Uuid128) (seq : ℤ) (hash : Bytes) : Verifier :=
  { chain := some chain, prev := some (seq, hash) }

/-- `seq + 1` on `i64` values in a release build. -/
def wrappingNext (seq : ℤ) : ℤ := (seq + 1 + 2 ^ 63) % 2 ^ 64 - 2 ^ 63

/-- Why a row does not follow the one before it. -/
def linkError (prev : Option (ℤ × Bytes)) (row : CanonicalRow) (prevHash : Option Bytes)
    (next : ℤ → ℤ := (· + 1)) : Option String :=
  match prev with
  | none => none
  | some (seq, hash) =>
      if row.seq ≠ next seq then some s!"gap in chain after seq {seq}"
      else if prevHash ≠ some hash then some "prev_hash does not link to the previous row"
      else none

/-- `Verifier::check`: the verifier afterwards, and the break when the row does not pass. -/
def check (P : Primitives) (self : Verifier) (row : CanonicalRow) (prevHash : Option Bytes)
    (rowHash : Bytes) (next : ℤ → ℤ := (· + 1)) : Verifier × Option Break :=
  if self.chain.any (· ≠ chainId row.tenantId) then
    (self, some ⟨row.seq, "the row belongs to another chain"⟩)
  else
    let joined := { self with chain := some (chainId row.tenantId) }
    match linkError self.prev row prevHash next with
    | some reason => (joined, some ⟨row.seq, reason⟩)
    | none =>
        if hash P prevHash row ≠ rowHash then
          (joined, some ⟨row.seq, "row hash does not match its contents"⟩)
        else
          ({ joined with
              checked := self.checked + 1
              firstSeq := some (self.firstSeq.getD row.seq)
              lastSeq := some row.seq
              lastHash := some rowHash
              prev := some (row.seq, rowHash) }, none)

end Verifier

/-- Checks rows one after the other, up to the first break. -/
def checkRows (P : Primitives) (v : Verifier) (rows : List AuditEvent)
    (next : ℤ → ℤ := (· + 1)) : Verifier × Option Break :=
  match rows with
  | [] => (v, none)
  | r :: rs =>
      match v.check P r.toCanonicalRow r.prevHash r.hash next with
      | (v', none) => checkRows P v' rs next
      | (v', some b) => (v', some b)

/-! ## What passes -/

/-- The bytes that are hashed for a row. -/
def AuditEvent.hashInput (P : Primitives) (r : AuditEvent) : Bytes :=
  r.prevHash.getD [] ++ canonical P r.toCanonicalRow

variable {P : Primitives} {r : AuditEvent}

lemma AuditEvent.hashInput_of_none (P : Primitives) (h : r.prevHash = none) :
    r.hashInput P = canonical P r.toCanonicalRow := by
  rw [AuditEvent.hashInput, h, Option.getD_none, List.nil_append]

lemma AuditEvent.hashInput_of_some (P : Primitives) {p : Bytes}
    (h : r.prevHash = some p) : r.hashInput P = p ++ canonical P r.toCanonicalRow := by
  rw [AuditEvent.hashInput, h, Option.getD_some]

/-- The row hashes to what it says. -/
def AuditEvent.Sound (P : Primitives) (r : AuditEvent) : Prop :=
  Audit.hash P r.prevHash r.toCanonicalRow = r.hash

/-- The row follows one with this number and this hash. -/
def AuditEvent.FollowsOn (r : AuditEvent) (p : ℤ × Bytes) (next : ℤ → ℤ := (· + 1)) : Prop :=
  r.seq = next p.1 ∧ r.prevHash = some p.2

/-- The rows a verifier passes: all of one chain, each following the row before it, each
sound. -/
def Accepted (P : Primitives) (chain : Option Uuid128) (prev : Option (ℤ × Bytes))
    (rows : List AuditEvent) (next : ℤ → ℤ := (· + 1)) : Prop :=
  match rows with
  | [] => True
  | r :: rs =>
      (∀ c ∈ chain, c = chainId r.tenantId) ∧ (∀ p ∈ prev, r.FollowsOn p next) ∧ r.Sound P ∧
        Accepted P (some (chainId r.tenantId)) (some (r.seq, r.hash)) rs next

/-- The rows are numbered one after the other, and each names its predecessor's hash. -/
def Linked (rows : List AuditEvent) : Prop :=
  NumberedLog.Consecutive (fun r : AuditEvent => r.seq) (fun r r' => r'.prevHash = some r.hash) rows

/-- The same for the numbers of a release build, where `i64::MIN` comes after `i64::MAX`. -/
def LinkedWrapping (rows : List AuditEvent) : Prop :=
  rows.IsChain fun r r' => r'.FollowsOn (r.seq, r.hash) Verifier.wrappingNext

variable {next : ℤ → ℤ}

lemma accepted_singleton (h : r.Sound P) :
    Accepted P none none [r] next :=
  ⟨fun _ hc => absurd hc (Option.not_mem_none _), fun _ hp => absurd hp (Option.not_mem_none _), h,
    trivial⟩

/-- The verifier after a row that passed. -/
def Verifier.passed (v : Verifier) (r : AuditEvent) : Verifier :=
  { chain := some (chainId r.tenantId)
    prev := some (r.seq, r.hash)
    checked := v.checked + 1
    firstSeq := some (v.firstSeq.getD r.seq)
    lastSeq := some r.seq
    lastHash := some r.hash }

lemma linkError_eq_none {prev : Option (ℤ × Bytes)} :
    Verifier.linkError prev r.toCanonicalRow r.prevHash next = none ↔
      ∀ p ∈ prev, r.FollowsOn p next := by
  cases prev with
  | none => simp [Verifier.linkError]
  | some p =>
      obtain ⟨seq, h⟩ := p
      simp only [Verifier.linkError, Option.mem_def, Option.some.injEq, forall_eq',
        AuditEvent.FollowsOn]
      split_ifs with hs hp <;> simp_all

lemma check_passes_iff (P : Primitives) (v : Verifier) (r : AuditEvent) :
    (v.check P r.toCanonicalRow r.prevHash r.hash next).2 = none ↔
      (∀ c ∈ v.chain, c = chainId r.tenantId) ∧ (∀ p ∈ v.prev, r.FollowsOn p next) ∧
        r.Sound P := by
  have hchain : v.chain.any (· ≠ chainId r.tenantId) = false ↔
      ∀ c ∈ v.chain, c = chainId r.tenantId := by
    cases v.chain <;> simp
  rw [← hchain, ← linkError_eq_none, Verifier.check]
  cases hany : v.chain.any (· ≠ chainId r.tenantId) with
  | true => simp
  | false =>
      cases hlink : Verifier.linkError v.prev r.toCanonicalRow r.prevHash next with
      | some reason => simp
      | none =>
          by_cases hs : Audit.hash P r.prevHash r.toCanonicalRow = r.hash
          · simp [hs, AuditEvent.Sound]
          · simp [hs, AuditEvent.Sound]

lemma check_eq_passed (P : Primitives) (v : Verifier) (r : AuditEvent)
    (h : (v.check P r.toCanonicalRow r.prevHash r.hash next).2 = none) :
    v.check P r.toCanonicalRow r.prevHash r.hash next = (v.passed r, none) := by
  obtain ⟨hchain, hlink, hs⟩ := (check_passes_iff P v r).mp h
  have hany : v.chain.any (· ≠ chainId r.tenantId) = false := by
    cases hv : v.chain with
    | none => rfl
    | some c => simp [hchain c hv]
  rw [Verifier.check, hany, linkError_eq_none.mpr hlink]
  simp only [Bool.false_eq_true, if_false]
  rw [AuditEvent.Sound] at hs
  rw [if_neg (not_not_intro hs)]
  rfl

/-- **What a list of rows must satisfy to pass.** -/
theorem accepted_iff (P : Primitives) (v : Verifier) (rows : List AuditEvent) :
    (checkRows P v rows next).2 = none ↔ Accepted P v.chain v.prev rows next := by
  induction rows generalizing v with
  | nil => simp [checkRows, Accepted]
  | cons r rs ih =>
      rw [checkRows, Accepted]
      by_cases hpass : (v.check P r.toCanonicalRow r.prevHash r.hash next).2 = none
      · rw [check_eq_passed P v r hpass]
        obtain ⟨h1, h2, h3⟩ := (check_passes_iff P v r).mp hpass
        show (checkRows P (v.passed r) rs next).2 = none ↔ _
        rw [ih]
        exact ⟨fun h => ⟨h1, h2, h3, h⟩, fun h => h.2.2.2⟩
      · constructor
        · intro h
          cases hc : v.check P r.toCanonicalRow r.prevHash r.hash next with
          | mk v' b =>
              cases b with
              | none =>
                  rw [hc] at hpass
                  exact absurd rfl hpass
              | some b => simp [hc] at h
        · rintro ⟨h1, h2, h3, -⟩
          exact absurd ((check_passes_iff P v r).mpr ⟨h1, h2, h3⟩) hpass

lemma checkRows_append (P : Primitives) (v : Verifier) (a b : List AuditEvent)
    (h : (checkRows P v a next).2 = none) :
    checkRows P v (a ++ b) next = checkRows P (checkRows P v a next).1 b next := by
  induction a generalizing v with
  | nil => rfl
  | cons r a ih =>
      rw [accepted_iff, Accepted] at h
      have hpass := check_eq_passed P v r ((check_passes_iff P v r).mpr ⟨h.1, h.2.1, h.2.2.1⟩)
      simp only [List.cons_append, checkRows, hpass]
      exact ih (v.passed r) ((accepted_iff P _ a).mpr h.2.2.2)

lemma checkRows_append_broken (P : Primitives) (v : Verifier) (a b : List AuditEvent)
    (h : (checkRows P v a next).2 ≠ none) :
    checkRows P v (a ++ b) next = checkRows P v a next := by
  induction a generalizing v with
  | nil => exact absurd rfl h
  | cons r a ih =>
      simp only [List.cons_append, checkRows] at h ⊢
      cases hc : v.check P r.toCanonicalRow r.prevHash r.hash next with
      | mk v' e =>
          cases e with
          | none =>
              simp only [hc] at h
              exact ih v' h
          | some e => rfl

lemma checkRows_passed (P : Primitives) (v : Verifier) (rows : List AuditEvent)
    (h : (checkRows P v rows next).2 = none) :
    (checkRows P v rows next).1.chain = (rows.getLast?.map fun r => chainId r.tenantId).or v.chain ∧
      (checkRows P v rows next).1.prev = (rows.getLast?.map fun r => (r.seq, r.hash)).or v.prev ∧
      (checkRows P v rows next).1.lastSeq = (rows.getLast?.map (·.seq)).or v.lastSeq ∧
      (checkRows P v rows next).1.lastHash = (rows.getLast?.map (·.hash)).or v.lastHash := by
  induction rows generalizing v with
  | nil => simp [checkRows]
  | cons r rs ih =>
      rw [accepted_iff, Accepted] at h
      have hpass := check_eq_passed P v r ((check_passes_iff P v r).mpr ⟨h.1, h.2.1, h.2.2.1⟩)
      have hrest := ih (v.passed r) ((accepted_iff P _ rs).mpr h.2.2.2)
      simp only [checkRows, hpass]
      cases hrs : rs.getLast? with
      | none =>
          rw [hrs] at hrest
          rw [List.getLast?_cons, hrs]
          exact hrest
      | some l =>
          rw [hrs] at hrest
          rw [List.getLast?_cons, hrs]
          exact hrest

lemma wrappingNext_of_lt {n : ℤ} (hmin : -2 ^ 63 ≤ n) (hmax : n < 2 ^ 63 - 1) :
    Verifier.wrappingNext n = n + 1 := by
  unfold Verifier.wrappingNext
  omega

/-- **Up to `i64::MAX` the checks take the integer after a number.** -/
theorem checkRows_wrapping (P : Primitives) (v : Verifier) (rows : List AuditEvent)
    (hprev : ∀ p ∈ v.prev, -2 ^ 63 ≤ p.1 ∧ p.1 < 2 ^ 63 - 1)
    (hrows : ∀ r ∈ rows, -2 ^ 63 ≤ r.seq ∧ r.seq < 2 ^ 63 - 1) :
    checkRows P v rows Verifier.wrappingNext = checkRows P v rows := by
  induction rows generalizing v with
  | nil => rfl
  | cons r rs ih =>
      have hlink : Verifier.linkError v.prev r.toCanonicalRow r.prevHash Verifier.wrappingNext =
          Verifier.linkError v.prev r.toCanonicalRow r.prevHash := by
        cases hp : v.prev with
        | none => rfl
        | some p =>
            obtain ⟨hmin, hmax⟩ := hprev p hp
            simp only [Verifier.linkError, wrappingNext_of_lt hmin hmax]
      have hcheck : v.check P r.toCanonicalRow r.prevHash r.hash Verifier.wrappingNext =
          v.check P r.toCanonicalRow r.prevHash r.hash := by
        rw [Verifier.check, Verifier.check, hlink]
      rw [checkRows, checkRows, hcheck]
      by_cases hpass : (v.check P r.toCanonicalRow r.prevHash r.hash).2 = none
      · rw [check_eq_passed P v r hpass]
        refine ih (v.passed r) ?_ (fun r' hr' => hrows r' (List.mem_cons_of_mem _ hr'))
        intro p hp
        cases hp
        exact hrows r List.mem_cons_self
      · cases hc : v.check P r.toCanonicalRow r.prevHash r.hash with
        | mk v' b =>
            cases b with
            | none => simp [hc] at hpass
            | some b => rfl

/-! ## What a head hash commits to -/

/-- SHA-256 has no collision among the inputs hashed for these rows. -/
def CollisionFree (P : Primitives) (rows : List AuditEvent) : Prop :=
  ∀ r ∈ rows, ∀ r' ∈ rows, P.sha256 (r.hashInput P) = P.sha256 (r'.hashInput P) →
    r.hashInput P = r'.hashInput P

/-- Two rows name the same predecessor and have the same canonical bytes. -/
def SameContents (P : Primitives) (r r' : AuditEvent) : Prop :=
  r.prevHash = r'.prevHash ∧ canonical P r.toCanonicalRow = canonical P r'.toCanonicalRow

/-- The row names a digest of 32 bytes as its predecessor's hash. -/
def AuditEvent.NamesDigest (r : AuditEvent) : Prop := ∃ h, r.prevHash = some h ∧ h.length = 32

/-- The row names no predecessor, or a digest. -/
def AuditEvent.PlainLink (r : AuditEvent) : Prop := ∀ h ∈ r.prevHash, h.length = 32

lemma AuditEvent.Sound.hash_eq (h : r.Sound P) :
    r.hash = P.sha256 (r.hashInput P) := h.symm

lemma accepted_namesDigest (hlen : ∀ b, (P.sha256 b).length = 32)
    {chain : Option Uuid128} {seq : ℤ} {h : Bytes} (hh : h.length = 32) {rows : List AuditEvent}
    (hacc : Accepted P chain (some (seq, h)) rows next) : ∀ r ∈ rows, r.NamesDigest := by
  induction rows generalizing chain seq h with
  | nil =>
      intro r hr
      cases hr
  | cons x rows ih =>
      obtain ⟨-, hlink, hsound, hrest⟩ := hacc
      intro r hr
      rcases List.mem_cons.mp hr with rfl | hr
      · exact ⟨h, (hlink _ rfl).2, hh⟩
      · exact ih (by rw [hsound.hash_eq, hlen]) hrest r hr

lemma accepted_follow {chain : Option Uuid128} {prev : Option (ℤ × Bytes)}
    {rows : List AuditEvent} (hacc : Accepted P chain prev rows next) :
    rows.IsChain fun r r' => r'.FollowsOn (r.seq, r.hash) next := by
  induction rows generalizing chain prev with
  | nil => exact .nil
  | cons r rows ih =>
      obtain ⟨-, -, -, hrest⟩ := hacc
      refine (ih hrest).cons ?_
      intro r' hr'
      cases rows with
      | nil => cases hr'
      | cons x rows =>
          cases hr'
          exact hrest.2.1 _ rfl

/-- Chains with one last hash hash the same. -/
lemma same_inputs (hlen : ∀ b, (P.sha256 b).length = 32) :
    ∀ {rows rows' : List AuditEvent} {c c' : Option Uuid128} {p p' : Option (ℤ × Bytes)},
      CollisionFree P (rows ++ rows') → rows.length = rows'.length → Accepted P c p rows next →
      Accepted P c' p' rows' next → rows.getLast?.map (·.hash) = rows'.getLast?.map (·.hash) →
      List.Forall₂ (fun r r' => r.hashInput P = r'.hashInput P) rows rows' := by
  intro rows
  induction rows with
  | nil =>
      intro rows' c c' p p' _ hl _ _ _
      rw [List.eq_nil_of_length_eq_zero hl.symm]
      exact .nil
  | cons r rows ih =>
      intro rows' c c' p p' hcf hl hacc hacc' hlast
      cases rows' with
      | nil => simp at hl
      | cons r' rows' =>
          obtain ⟨-, -, hs, hrest⟩ := hacc
          obtain ⟨-, -, hs', hrest'⟩ := hacc'
          have hl' : rows.length = rows'.length := by simpa using hl
          -- equal hashes of the two heads are equal inputs
          have hinput : r.hash = r'.hash → r.hashInput P = r'.hashInput P := by
            intro hh
            rw [hs.hash_eq, hs'.hash_eq] at hh
            exact hcf r (by simp) r' (by simp) hh
          cases rows with
          | nil =>
              have hnil := List.eq_nil_of_length_eq_zero hl'.symm
              subst hnil
              exact .cons (hinput (by simpa using hlast)) .nil
          | cons x rows =>
              cases rows' with
              | nil => simp at hl'
              | cons x' rows' =>
                  have hcf' : CollisionFree P (x :: rows ++ x' :: rows') := by
                    intro a ha b hb
                    refine hcf a ?_ b ?_
                    · simp only [List.mem_append, List.mem_cons] at ha ⊢
                      tauto
                    · simp only [List.mem_append, List.mem_cons] at hb ⊢
                      tauto
                  have htail := ih hcf' hl' hrest hrest'
                    (by simpa [List.getLast?_cons_cons] using hlast)
                  -- the second rows hash the same bytes, and both name a digest of 32 bytes first
                  have hxx := (List.forall₂_cons.mp htail).1
                  have hx := (hrest.2.1 _ rfl).2
                  have hx' := (hrest'.2.1 _ rfl).2
                  rw [x.hashInput_of_some P hx, x'.hashInput_of_some P hx'] at hxx
                  have hh := (List.append_inj hxx (by rw [hs.hash_eq, hs'.hash_eq, hlen, hlen])).1
                  exact .cons (hinput hh) htail

lemma sameContents_of_digests {r r' : AuditEvent} (hr : r.NamesDigest)
    (hr' : r'.NamesDigest) (h : r.hashInput P = r'.hashInput P) : SameContents P r r' := by
  obtain ⟨a, ha, hla⟩ := hr
  obtain ⟨b, hb, hlb⟩ := hr'
  rw [r.hashInput_of_some P ha, r'.hashInput_of_some P hb] at h
  obtain ⟨hab, hcc⟩ := List.append_inj h (by rw [hla, hlb])
  exact ⟨by rw [ha, hb, hab], hcc⟩

lemma canonical_ne_digest_append (P : Primitives) (r r' : CanonicalRow) {h : Bytes}
    (hh : h.length = 32) : canonical P r ≠ h ++ canonical P r' := by
  intro heq
  obtain ⟨front, rest, hr, hlen, -⟩ := canonical_head P r
  obtain ⟨front', rest', hr', hlen', hbar'⟩ := canonical_head P r'
  have hleft : (front ++ 124 :: rest)[36]? = some 124 := by
    rw [List.getElem?_append_right (by omega), hlen, Nat.sub_self, List.getElem?_cons_zero]
  have hright : (h ++ (front' ++ 124 :: rest'))[36]? = front'[36 - h.length]? := by
    rw [List.getElem?_append_right (by omega), List.getElem?_append_left (by omega)]
  rw [hr, hr'] at heq
  rw [heq, hright] at hleft
  exact hbar' (List.mem_of_getElem? hleft)

lemma sameContents_of_plainLinks {r r' : AuditEvent} (hr : r.PlainLink)
    (hr' : r'.PlainLink) (h : r.hashInput P = r'.hashInput P) : SameContents P r r' := by
  cases hp : r.prevHash with
  | none =>
      rw [r.hashInput_of_none P hp] at h
      cases hp' : r'.prevHash with
      | none =>
          rw [r'.hashInput_of_none P hp'] at h
          exact ⟨by rw [hp, hp'], h⟩
      | some b =>
          rw [r'.hashInput_of_some P hp'] at h
          exact absurd h (canonical_ne_digest_append P _ _ (hr' b hp'))
  | some a =>
      cases hp' : r'.prevHash with
      | none =>
          rw [r.hashInput_of_some P hp, r'.hashInput_of_none P hp'] at h
          exact absurd h.symm (canonical_ne_digest_append P _ _ (hr a hp))
      | some b => exact sameContents_of_digests ⟨a, hp, hr a hp⟩ ⟨b, hp', hr' b hp'⟩ h

lemma forall₂_sameContents {rows rows' : List AuditEvent}
    (h : List.Forall₂ (fun r r' => r.hashInput P = r'.hashInput P) rows rows')
    (hr : ∀ r ∈ rows, r.NamesDigest) (hr' : ∀ r ∈ rows', r.NamesDigest) :
    List.Forall₂ (SameContents P) rows rows' := by
  induction h with
  | nil => exact .nil
  | cons hab _ ih =>
      exact .cons (sameContents_of_digests (hr _ List.mem_cons_self) (hr' _ List.mem_cons_self) hab)
        (ih (fun r h => hr r (List.mem_cons_of_mem _ h))
          (fun r h => hr' r (List.mem_cons_of_mem _ h)))

/-- **A head hash commits to the rows before it.**  Two lists of one length that a fresh verifier
passes and that end in one hash number each row after its predecessor and agree, behind the first
row, in every `prev_hash` and in every row's canonical bytes.  Their first rows hash the same
bytes, and agree as well when each names no predecessor or a digest. -/
theorem last_hash_commits (P : Primitives) (hlen : ∀ b, (P.sha256 b).length = 32)
    (rows rows' : List AuditEvent) (hcf : CollisionFree P (rows ++ rows'))
    (hl : rows.length = rows'.length)
    (hacc : (checkRows P Verifier.new rows Verifier.wrappingNext).2 = none)
    (hacc' : (checkRows P Verifier.new rows' Verifier.wrappingNext).2 = none)
    (hlast : (checkRows P Verifier.new rows Verifier.wrappingNext).1.lastHash =
      (checkRows P Verifier.new rows' Verifier.wrappingNext).1.lastHash) :
    LinkedWrapping rows ∧ LinkedWrapping rows' ∧
      List.Forall₂ (SameContents P) rows.tail rows'.tail ∧
      (∀ r ∈ rows.head?, ∀ r' ∈ rows'.head?, r.hashInput P = r'.hashInput P ∧
        (r.PlainLink → r'.PlainLink → SameContents P r r')) := by
  obtain ⟨-, -, -, hlast1⟩ := checkRows_passed P Verifier.new rows hacc
  obtain ⟨-, -, -, hlast2⟩ := checkRows_passed P Verifier.new rows' hacc'
  rw [accepted_iff] at hacc hacc'
  have hsame : rows.getLast?.map (·.hash) = rows'.getLast?.map (·.hash) := by
    rw [hlast1, hlast2] at hlast
    simpa [Verifier.new] using hlast
  have hinputs := same_inputs hlen hcf hl hacc hacc' hsame
  refine ⟨accepted_follow hacc, accepted_follow hacc', ?_, ?_⟩
  · cases hinputs with
    | nil => exact .nil
    | cons hab htail =>
        obtain ⟨-, -, hs, hrest⟩ := hacc
        obtain ⟨-, -, hs', hrest'⟩ := hacc'
        exact forall₂_sameContents htail
          (accepted_namesDigest hlen (by rw [hs.hash_eq, hlen]) hrest)
          (accepted_namesDigest hlen (by rw [hs'.hash_eq, hlen]) hrest')
  · intro r hr r' hr'
    cases hinputs with
    | nil => cases hr
    | cons hab htail =>
        cases hr
        cases hr'
        exact ⟨hab, fun h h' => sameContents_of_plainLinks h h' hab⟩

def sampleDigest : Bytes :=
  [41, 204, 156, 3, 41, 210, 94, 22, 184, 223, 58, 103, 181, 255, 197, 95,
    18, 251, 129, 177, 81, 83, 124, 168, 253, 240, 0, 186, 86, 99, 247, 48]

def sampleDigest2 : Bytes :=
  [146, 136, 79, 177, 22, 19, 190, 44, 244, 35, 209, 153, 134, 107, 96, 80,
    103, 133, 231, 170, 33, 46, 3, 147, 196, 150, 107, 95, 15, 169, 184, 84]

def sampleDigest3 : Bytes :=
  [213, 255, 95, 39, 183, 78, 147, 54, 200, 50, 225, 228, 35, 210, 95, 84,
    26, 93, 17, 183, 222, 90, 44, 218, 99, 78, 226, 35, 250, 146, 124, 32]

def sampleRow2 : CanonicalRow :=
  { sampleRow with id := 0x018bcfe5680070008000000000000002#128, seq := 2 }

def embeddedRow : CanonicalRow :=
  { sampleRow with
    id := 0x018bcfe5680070008000000000000009#128
    seq := 7
    name := "user.deleted"
    userAgent := some "x" }

def frontText (row : CanonicalRow) : List Char :=
  row.id.text ++ ('|' :: ((chainId row.tenantId).text ++ ('|' :: ((toString row.seq).toList ++
    ('|' :: (sampleRfc3339 (micros row.occurredAt) ++ ('|' :: (row.name.toList ++
      ('|' :: (row.actorType.toList ++ ('|' :: (optText row.actorId ++
        ('|' :: (optText row.subjectId ++ ('|' :: ((row.ip.getD "").toList ++ ['|']))))))))))))))))

def carrierRow : CanonicalRow :=
  { sampleRow with userAgent := some (String.ofList (frontText embeddedRow ++ ['x'])) }

def sampleSha256 (b : Bytes) : Bytes :=
  if b = canonical ⟨id, sampleRfc3339⟩ sampleRow then sampleDigest
  else if b = sampleDigest ++ canonical ⟨id, sampleRfc3339⟩ sampleRow2 then sampleDigest2
  else if b = canonical ⟨id, sampleRfc3339⟩ carrierRow then sampleDigest3
  else List.replicate 32 0

def samplePrimitives : Primitives := ⟨sampleSha256, sampleRfc3339⟩

lemma length_sampleSha256 (b : Bytes) : (samplePrimitives.sha256 b).length = 32 := by
  show (sampleSha256 b).length = 32
  unfold sampleSha256
  split_ifs <;> rfl

lemma hash_samplePrimitives (p : Option Bytes) (r : CanonicalRow) :
    hash samplePrimitives p r = sampleSha256 (p.getD [] ++ canonical ⟨id, sampleRfc3339⟩ r) := rfl

lemma hash_sampleRow : hash samplePrimitives none sampleRow = sampleDigest := by
  rw [hash_samplePrimitives, Option.getD_none, List.nil_append, sampleSha256, if_pos rfl]

lemma hash_sampleRow2 : hash samplePrimitives (some sampleDigest) sampleRow2 = sampleDigest2 := by
  have hne := (canonical_ne_digest_append ⟨id, sampleRfc3339⟩ sampleRow sampleRow2
    (h := sampleDigest) rfl).symm
  rw [hash_samplePrimitives, Option.getD_some, sampleSha256, if_neg hne, if_pos rfl]

lemma canonical_nil_tenant (P : Primitives) (r : CanonicalRow) (h : r.tenantId = none) :
    canonical P { r with tenantId := some Uuid128.nil } = canonical P r := by
  have hchain : chainId (some Uuid128.nil) = chainId r.tenantId := by
    rw [h]
    rfl
  simp only [canonical, canonicalText, hchain]

lemma hash_nil_tenant (P : Primitives) (p : Option Bytes) (r : CanonicalRow)
    (h : r.tenantId = none) : hash P p { r with tenantId := some Uuid128.nil } = hash P p r := by
  rw [hash, hash, canonical_nil_tenant P r h]

def sampleRows : List AuditEvent :=
  [{ sampleRow with prevHash := none, hash := sampleDigest },
    { sampleRow2 with prevHash := some sampleDigest, hash := sampleDigest2 }]

def sampleRowsOfNil : List AuditEvent := sampleRows.map ({ · with tenantId := some Uuid128.nil })

lemma sampleRows_pass :
    (checkRows samplePrimitives Verifier.new sampleRows Verifier.wrappingNext).2 = none := by
  rw [accepted_iff]
  exact ⟨nofun, nofun, hash_sampleRow, fun _ hc => by cases hc; rfl,
    fun _ hp => by cases hp; exact ⟨rfl, rfl⟩, hash_sampleRow2, trivial⟩

lemma sampleRowsOfNil_pass :
    (checkRows samplePrimitives Verifier.new sampleRowsOfNil Verifier.wrappingNext).2 = none := by
  rw [accepted_iff]
  exact ⟨nofun, nofun, (hash_nil_tenant _ _ _ rfl).trans hash_sampleRow,
    fun _ hc => by cases hc; rfl, fun _ hp => by cases hp; exact ⟨rfl, rfl⟩,
    (hash_nil_tenant _ _ _ rfl).trans hash_sampleRow2, trivial⟩

/-- Two inputs with two digests do not collide. -/
lemma collisionFree_of_two {rows : List AuditEvent} {b b' d d' : Bytes} (hb : P.sha256 b = d)
    (hb' : P.sha256 b' = d') (hne : d ≠ d')
    (hinputs : ∀ r ∈ rows, r.hashInput P = b ∨ r.hashInput P = b') : CollisionFree P rows := by
  intro r hr r' hr' h
  rcases hinputs r hr with hi | hi <;> rcases hinputs r' hr' with hi' | hi' <;> rw [hi, hi'] at h ⊢
  · exact absurd (hb.symm.trans (h.trans hb')) hne
  · exact absurd (hb.symm.trans (h.symm.trans hb')) hne

lemma sampleRows_collisionFree : CollisionFree samplePrimitives (sampleRows ++ sampleRowsOfNil) := by
  have hfirst : samplePrimitives.sha256 (canonical samplePrimitives sampleRow) = sampleDigest :=
    hash_sampleRow
  have hsecond : samplePrimitives.sha256 (sampleDigest ++ canonical samplePrimitives sampleRow2) =
      sampleDigest2 := hash_sampleRow2
  refine collisionFree_of_two hfirst hsecond (by decide) fun r hr => ?_
  simp only [sampleRows, sampleRowsOfNil, List.map_cons, List.map_nil, List.cons_append,
    List.nil_append, List.mem_cons, List.not_mem_nil, or_false] at hr
  rcases hr with rfl | rfl | rfl | rfl
  · exact .inl rfl
  · exact .inr rfl
  · exact .inl (canonical_nil_tenant samplePrimitives sampleRow rfl)
  · exact .inr (congrArg (sampleDigest ++ ·) (canonical_nil_tenant samplePrimitives sampleRow2 rfl))

/-- The two sample lists, told apart by nothing that is hashed. -/
theorem last_hash_commits_sample :
    LinkedWrapping sampleRows ∧ LinkedWrapping sampleRowsOfNil ∧
      List.Forall₂ (SameContents samplePrimitives) sampleRows.tail sampleRowsOfNil.tail ∧
      (∀ r ∈ sampleRows.head?, ∀ r' ∈ sampleRowsOfNil.head?,
        r.hashInput samplePrimitives = r'.hashInput samplePrimitives ∧
          (r.PlainLink → r'.PlainLink → SameContents samplePrimitives r r')) :=
  last_hash_commits samplePrimitives length_sampleSha256 sampleRows sampleRowsOfNil
    sampleRows_collisionFree rfl sampleRows_pass sampleRowsOfNil_pass (by
      rw [(checkRows_passed _ _ _ sampleRows_pass).2.2.2,
        (checkRows_passed _ _ _ sampleRowsOfNil_pass).2.2.2]
      rfl)

lemma canonicalText_front (f : Bytes → Bytes) (row : CanonicalRow) :
    canonicalText ⟨f, sampleRfc3339⟩ row = frontText row ++ ((row.userAgent.getD "").toList ++
      ('|' :: (row.payload.value.text ++ impersonatorText row.impersonatorId))) := by
  simp only [canonicalText, frontText, List.append_assoc, List.cons_append, List.nil_append]

lemma canonical_carrierRow : canonical samplePrimitives carrierRow =
    utf8 (frontText carrierRow) ++ canonical samplePrimitives embeddedRow := by
  have hagent : (carrierRow.userAgent.getD "").toList = frontText embeddedRow ++ ['x'] :=
    String.toList_ofList
  rw [canonical, canonical, samplePrimitives, canonicalText_front, canonicalText_front, hagent,
    utf8, List.flatMap_append, List.append_assoc]
  rfl

lemma carrierRow_noBars : carrierRow.NoBars := ⟨by decide, by decide, by decide⟩

lemma hash_carrierRow : hash samplePrimitives none carrierRow = sampleDigest3 := by
  have hne : canonical ⟨id, sampleRfc3339⟩ carrierRow ≠ canonical ⟨id, sampleRfc3339⟩ sampleRow := by
    intro h
    have hsame := canonical_determines_fields ⟨id, sampleRfc3339⟩ (sampleRfc3339_prints id)
      carrierRow sampleRow carrierRow_noBars ⟨by decide, by decide, by decide⟩ h
    have hagent : frontText embeddedRow ++ ['x'] = "curl/8.5".toList := by
      have := congrArg String.toList hsame.2.2.2.2.2.2.2.2.2.2.1
      rwa [show carrierRow.userAgent.getD "" = String.ofList (frontText embeddedRow ++ ['x'])
        from rfl, String.toList_ofList] at this
    have hlast := congrArg List.getLast? hagent
    rw [List.getLast?_concat] at hlast
    exact absurd hlast (by decide)
  have hne2 := canonical_ne_digest_append ⟨id, sampleRfc3339⟩ carrierRow sampleRow2
    (h := sampleDigest) rfl
  rw [hash_samplePrimitives, Option.getD_none, List.nil_append, sampleSha256, if_neg hne,
    if_neg hne2, if_pos rfl]

def carrierEvent : AuditEvent := { carrierRow with prevHash := none, hash := sampleDigest3 }

def embeddedEvent : AuditEvent :=
  { embeddedRow with prevHash := some (utf8 (frontText carrierRow)), hash := sampleDigest3 }

lemma hashInput_embeddedEvent :
    embeddedEvent.hashInput samplePrimitives = carrierEvent.hashInput samplePrimitives := by
  rw [embeddedEvent.hashInput_of_some samplePrimitives rfl,
    carrierEvent.hashInput_of_none samplePrimitives rfl]
  exact canonical_carrierRow.symm

lemma sound_carrierEvent : carrierEvent.Sound samplePrimitives := hash_carrierRow

lemma sound_embeddedEvent : embeddedEvent.Sound samplePrimitives := by
  have h : Audit.hash samplePrimitives embeddedEvent.prevHash embeddedEvent.toCanonicalRow =
      samplePrimitives.sha256 (carrierEvent.hashInput samplePrimitives) :=
    congrArg samplePrimitives.sha256 hashInput_embeddedEvent
  exact h.trans sound_carrierEvent

/-- The rows of an export at the two ends of `i64`. -/
def edgeRow : CanonicalRow := { sampleRow with seq := 2 ^ 63 - 1 }

def edgeRow2 : CanonicalRow := { sampleRow2 with seq := -2 ^ 63 }

def edgeRows : List AuditEvent :=
  [{ edgeRow with prevHash := none, hash := sampleDigest },
    { edgeRow2 with prevHash := some sampleDigest, hash := sampleDigest2 }]

def edgeSha256 (b : Bytes) : Bytes :=
  if b = canonical ⟨id, sampleRfc3339⟩ edgeRow then sampleDigest else sampleDigest2

def edgePrimitives : Primitives := ⟨edgeSha256, sampleRfc3339⟩

lemma sha256_edgePrimitives (p : Bytes) (r : CanonicalRow) :
    edgePrimitives.sha256 (p ++ canonical edgePrimitives r) =
      edgeSha256 (p ++ canonical ⟨id, sampleRfc3339⟩ r) := rfl

lemma sha256_edgeRow :
    edgePrimitives.sha256 ([] ++ canonical edgePrimitives edgeRow) = sampleDigest := by
  rw [sha256_edgePrimitives, List.nil_append, edgeSha256, if_pos rfl]

lemma sha256_edgeRow2 :
    edgePrimitives.sha256 (sampleDigest ++ canonical edgePrimitives edgeRow2) = sampleDigest2 := by
  have hne := (canonical_ne_digest_append ⟨id, sampleRfc3339⟩ edgeRow edgeRow2
    (h := sampleDigest) rfl).symm
  rw [sha256_edgePrimitives, edgeSha256, if_neg hne]

lemma edgeRows_pass :
    (checkRows edgePrimitives Verifier.new edgeRows Verifier.wrappingNext).2 = none := by
  rw [accepted_iff]
  exact ⟨by simp [Verifier.new], by simp [Verifier.new], sha256_edgeRow,
    fun _ hc => by cases hc; rfl, fun _ hp => by cases hp; exact ⟨rfl, rfl⟩, sha256_edgeRow2,
    trivial⟩

lemma edgeRows_collisionFree : CollisionFree edgePrimitives edgeRows := by
  refine collisionFree_of_two sha256_edgeRow sha256_edgeRow2 (by decide) fun r hr => ?_
  simp only [edgeRows, List.mem_cons, List.not_mem_nil, or_false] at hr
  rcases hr with rfl | rfl
  · exact .inl rfl
  · exact .inr rfl

/-- **The first row is not framed, and a number can wrap.**  A user agent can hold the text of
another row.  The row that carries it and the row it carries, with what stands in front of it as
`prev_hash`, both pass a fresh verifier and leave one head hash, and differ in `prev_hash` and in
their bytes.  Two rows numbered `i64::MAX` and `i64::MIN` pass as well, and are not consecutive. -/
theorem first_row_is_not_framed :
    (CollisionFree samplePrimitives ([carrierEvent] ++ [embeddedEvent]) ∧
      (checkRows samplePrimitives Verifier.new [carrierEvent] Verifier.wrappingNext).2 = none ∧
      (checkRows samplePrimitives Verifier.new [embeddedEvent] Verifier.wrappingNext).2 = none ∧
      (checkRows samplePrimitives Verifier.new [carrierEvent] Verifier.wrappingNext).1.lastHash =
        (checkRows samplePrimitives Verifier.new [embeddedEvent] Verifier.wrappingNext).1.lastHash ∧
      carrierEvent.prevHash ≠ embeddedEvent.prevHash ∧
      canonical samplePrimitives carrierEvent.toCanonicalRow ≠
        canonical samplePrimitives embeddedEvent.toCanonicalRow) ∧
      (CollisionFree edgePrimitives edgeRows ∧
        (checkRows edgePrimitives Verifier.new edgeRows Verifier.wrappingNext).2 = none ∧
        edgeRows.map (·.seq) = [2 ^ 63 - 1, -2 ^ 63] ∧ ¬ Linked edgeRows) := by
  have hpass : (checkRows samplePrimitives Verifier.new [carrierEvent] Verifier.wrappingNext).2 =
      none := by
    rw [accepted_iff]
    exact accepted_singleton sound_carrierEvent
  have hpass' : (checkRows samplePrimitives Verifier.new [embeddedEvent] Verifier.wrappingNext).2 =
      none := by
    rw [accepted_iff]
    exact accepted_singleton sound_embeddedEvent
  have hedge : ¬ Linked edgeRows := by
    intro h
    have hseq := (List.isChain_cons_cons.mp h).1.1
    exact absurd hseq (by decide)
  refine ⟨⟨?_, hpass, hpass', ?_, nofun, ?_⟩, edgeRows_collisionFree, edgeRows_pass, rfl, hedge⟩
  · have hinput : ∀ r ∈ [carrierEvent] ++ [embeddedEvent],
        r.hashInput samplePrimitives = carrierEvent.hashInput samplePrimitives := by
      intro r hr
      simp only [List.cons_append, List.nil_append, List.mem_cons, List.not_mem_nil, or_false] at hr
      rcases hr with rfl | rfl
      · rfl
      · exact hashInput_embeddedEvent
    intro r hr r' hr' _
    rw [hinput r hr, hinput r' hr']
  · rw [(checkRows_passed _ _ _ hpass).2.2.2, (checkRows_passed _ _ _ hpass').2.2.2]
    rfl
  · intro h
    have hsame := canonical_determines_fields samplePrimitives (sampleRfc3339_prints _)
      carrierRow embeddedRow carrierRow_noBars ⟨by decide, by decide, by decide⟩ h
    exact absurd hsame.1 (by decide)

end Ridm.Audit
