import Ridm.Audit.Verification

/-!
# Rows removed behind the server's back

`verify` walks the rows that are left and reports the chain valid when no row it reads breaks it.
A removed row shows as a gap when rows remain on both sides of it.  The walk ends silently at the
last row it can read, and the head kept in `audit_chains` is not compared with it, so a removed
end of the chain is not noticed: `removal_is_noticed_iff` is the exact condition, and
`cut_tail_is_not_noticed` a chain that loses its newest row.
-/

namespace Ridm.Audit

open NumberedLog

/-- The chain without the rows that are gone; its entry in `audit_chains` is intact. -/
def ChainStore.remove (s : ChainStore) (gone : AuditEvent → Bool) : ChainStore :=
  { s with rows := s.rows.filter fun r => !gone r }

/-- The rows that are gone are a prefix of the retained ones, as retention leaves it. -/
def PrefixGone (s : ChainStore) (gone : AuditEvent → Bool) : Prop :=
  ∀ d ∈ s.rows, ∀ r ∈ s.rows, gone d = true → gone r = false → d.seq < r.seq

/-- Some row is gone between two that remain. -/
def GoneBetween (s : ChainStore) (gone : AuditEvent → Bool) : Prop :=
  ∃ a ∈ s.rows, ∃ d ∈ s.rows, ∃ b ∈ s.rows, gone a = false ∧ gone d = true ∧ gone b = false ∧
    a.seq < d.seq ∧ d.seq < b.seq

lemma goneBetween_iff (s : ChainStore) (gone : AuditEvent → Bool) :
    GoneBetween s gone ↔ ¬ NoHole (fun r : AuditEvent => r.seq) (fun r => !gone r) s.rows := by
  constructor
  · rintro ⟨a, ha, d, hd, b, hb, hga, hgd, hgb, had, hdb⟩ hole
    exact hole a ha d hd b hb (by simp [hga]) (by simp [hgd]) (by simp [hgb]) had hdb
  · intro hno
    by_contra hbetween
    refine hno ?_
    intro a ha d hd b hb hka hkd hkb had hdb
    exact hbetween ⟨a, ha, d, hd, b, hb, by simpa using hka, by simpa using hkd,
      by simpa using hkb, had, hdb⟩

lemma verify_remove {P : Primitives} {tenantId : Option Uuid128} {s : ChainStore}
    (h : HonestRows P (chainId tenantId) s.rows) (gone : AuditEvent → Bool) :
    ∃ v, verify P (s.remove gone) tenantId = some v ∧ (v.valid = false ↔ GoneBetween s gone) := by
  have hordered : Ordered (s.remove gone).rows := h.ordered.filter _
  have hpass : (checkRows P Verifier.new (s.remove gone).rows).2 = none ↔ ¬ GoneBetween s gone := by
    rw [accepted_iff, goneBetween_iff, not_not]
    constructor
    · intro hacc
      refine (consecutive_filter_iff h.linked).mp ?_
      exact (accepted_follow hacc).imp (fun _ _ hab => ⟨hab.1, trivial⟩)
    · intro hole
      have hkept : HonestRows P (chainId tenantId) (s.remove gone).rows :=
        ⟨h.linked.filter hole, fun r hr => h.sound r (List.mem_of_mem_filter hr),
          fun r hr => h.ofChain r (List.mem_of_mem_filter hr)⟩
      exact hkept.accepted_fresh
  refine ⟨_, by rw [verify, walk_eq P hordered]; rfl, ?_⟩
  simp only [WalkState.start, rowsAfter_none, walkAll]
  rw [← not_iff_not, ← hpass]
  cases (checkRows P Verifier.new (s.remove gone).rows).2 with
  | none => simp
  | some b => simp

/-- **When removal is noticed.**  For a chain built by appends and retention, and rows removed
from it: "if they are not a prefix, the chain does not verify" holds exactly when they are a
prefix or one of them lies between two rows that remain. -/
theorem removal_is_noticed_iff (P : Primitives) (tenantId : Option Uuid128) (ops : List ChainOp)
    (s : ChainStore) (hops : ∀ op ∈ ops, op.OfChain tenantId)
    (hrun : (chainMachine P tenantId).run ChainStore.empty ops = some s)
    (gone : AuditEvent → Bool) :
    (¬ PrefixGone s gone →
        ∃ v, verify P (s.remove gone) tenantId = some v ∧ v.valid = false) ↔
      PrefixGone s gone ∨ GoneBetween s gone := by
  obtain ⟨s', hs', all, h⟩ := chainMachine_run hops (honest_empty P (chainId tenantId))
  rw [hrun, Option.some.injEq] at hs'
  subst hs'
  obtain ⟨v, hv, hvalid⟩ := verify_remove h.rows_honest gone
  constructor
  · intro hclaim
    by_cases hcut : PrefixGone s gone
    · exact .inl hcut
    · obtain ⟨v', hv', hfalse⟩ := hclaim hcut
      rw [hv, Option.some.injEq] at hv'
      subst hv'
      exact .inr (hvalid.mp hfalse)
  · rintro (hcut | hbetween) hnot
    · exact absurd hcut hnot
    · exact ⟨v, hv, hvalid.mpr hbetween⟩

def threeRows : ChainStore :=
  recordChain samplePrimitives ChainStore.empty [sampleEvent 1, sampleEvent 2, sampleEvent 3]

lemma threeRows_run : (chainMachine samplePrimitives none).run ChainStore.empty
    [.record [sampleEvent 1, sampleEvent 2, sampleEvent 3]] = some threeRows := rfl

lemma threeRows_ofChain :
    ∀ op ∈ [ChainOp.record [sampleEvent 1, sampleEvent 2, sampleEvent 3]], op.OfChain none := by
  intro op hop
  rw [List.mem_singleton] at hop
  subst hop
  simp [ChainOp.OfChain, sampleEvent]

/-- The row in the middle is gone. -/
theorem removal_is_noticed_iff_middle :
    (¬ PrefixGone threeRows (·.seq = 2) → ∃ v,
        verify samplePrimitives (threeRows.remove (·.seq = 2)) none = some v ∧ v.valid = false) ↔
      PrefixGone threeRows (·.seq = 2) ∨ GoneBetween threeRows (·.seq = 2) :=
  removal_is_noticed_iff samplePrimitives none _ threeRows threeRows_ofChain threeRows_run _

/-- **A cut end is not noticed.**  The newest row is gone, the head kept in `audit_chains` still
names it, and the chain is reported valid. -/
theorem cut_tail_is_not_noticed :
    (chainMachine samplePrimitives none).run ChainStore.empty
        [.record [sampleEvent 1, sampleEvent 2, sampleEvent 3]] = some threeRows ∧
      ¬ PrefixGone threeRows (·.seq = 3) ∧
      (threeRows.remove (·.seq = 3)).entry.map (·.headSeq) = some 3 ∧
      ∃ v, verify samplePrimitives (threeRows.remove (·.seq = 3)) none = some v ∧ v.valid = true := by
  obtain ⟨s', hs', all, h⟩ :=
    chainMachine_run threeRows_ofChain (honest_empty samplePrimitives (chainId none))
  rw [threeRows_run, Option.some.injEq] at hs'
  subst hs'
  obtain ⟨v, hv, hvalid⟩ := verify_remove h.rows_honest (·.seq = 3)
  have hbetween : ¬ GoneBetween threeRows (·.seq = 3) := by
    unfold GoneBetween
    decide
  refine ⟨threeRows_run, by unfold PrefixGone; decide, rfl, v, hv, ?_⟩
  rw [← hvalid] at hbetween
  simpa using hbetween

end Ridm.Audit
