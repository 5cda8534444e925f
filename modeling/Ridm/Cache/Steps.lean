import Ridm.Cache.Model

/-!
# What one step of a call does

`act_acts` says once what a step of `get_or_load` can do to the store and to the call: where a ticket,
a value or a result comes from, and what stays as it was.  All that is proved of calls rests on it.
-/

namespace Ridm.Cache

variable {N ι V : Type}

def Pc.ticketOf : Pc V → Option (Option ℕ)
  | .ticketCleared e => some e
  | .fetch t | .wait t | .again t | .againNegative t | .load t | .store t _ | .check t _
  | .checkCleared t _ | .insert t _ | .recheck t _ | .recheckCleared t _ => some t.evicted
  | _ => none

def Pc.valueOf : Pc V → Option (Option V)
  | .store _ v | .check _ v | .checkCleared _ v | .insert _ v | .recheck _ v | .recheckCleared _ v
  | .undo v => some v
  | _ => none

/-- The call is between the first check of its insert and the insert. -/
def Pc.isChecked : Pc V → Bool
  | .checkCleared _ _ | .insert _ _ => true
  | _ => false

/-- What calls leave of the store: everything but Valkey, entries and gates. -/
structure Store.Same (g g' : Store N ι V) : Prop where
  now : g'.now = g.now
  source : g'.source = g.source
  phase : g'.phase = g.phase
  evicting : g'.evicting = g.evicting
  evicted : ∀ n, (g'.l1 n).evicted = (g.l1 n).evicted
  generation : ∀ n, (g'.l1 n).generation = (g.l1 n).generation

/-- What one step of a call does. -/
structure Acts (g : Store N ι V) (l : Call N V) (g' : Store N ι V) (l' : Call N V) : Prop where
  same : g.Same g'
  node : l'.node = l.node
  valkey : g'.valkey = g.valkey ∨ ∃ t v d, l.pc = .store t v ∧ g.valkey.get ≠ some .invalidated ∧
    g'.valkey = Slot.setUntil (.value v) d
  entry : ∀ n v, (g'.l1 n).entry.get = some v → (g.l1 n).entry.get = some v ∨
    n = l.node ∧ ∃ t, l.pc = .insert t v
  late : l'.late = l.late ∨ l.pc = .start ∧ l'.late = g.settled l.node
  ticket : ∀ e, l'.pc.ticketOf = some e →
    (l.pc.ticketOf = some e ∧ l'.ticketAt = l.ticketAt ∧ l'.early = l.early) ∨
      (e = (g.l1 l.node).evicted.get ∧ l'.ticketAt = g.now ∧ l'.early = !(g.evicting l.node).isMarked)
  value : ∀ v, l'.pc.valueOf = some v → l'.early = l.early ∧ (l.pc.valueOf = some v ∨
    (∃ t, l.pc = .fetch t ∧ g.valkey.get = some (.value v)) ∨ ∃ t, l.pc = .load t ∧ v = g.source)
  store : ∀ t v, l'.pc = .store t v → v = g.source ∧ l'.readAt = g.now
  checked : l'.pc.isChecked = true → l'.early = l.early ∧
    ((l.pc.isChecked = true ∧ l'.unevicted = l.unevicted) ∨
      ∃ t v, l.pc = .check t v ∧ (g.l1 l.node).evicted.get = t.evicted ∧
        l'.unevicted = !(g.evicting l.node).isMarked)
  returned : ∀ v, l'.pc = .returned v → (g.l1 l.node).entry.get = some v ∨ l.pc.valueOf = some v

/-- A step touches nothing but gates, or takes an entry away. -/
structure Store.Quiet (g g' : Store N ι V) : Prop extends g.Same g' where
  valkey : g'.valkey = g.valkey
  entry : ∀ n v, (g'.l1 n).entry.get = some v → (g.l1 n).entry.get = some v

lemma Store.Same.refl (g : Store N ι V) : g.Same g := ⟨rfl, rfl, rfl, rfl, fun _ => rfl, fun _ => rfl⟩

lemma Store.Quiet.refl (g : Store N ι V) : g.Quiet g := ⟨.refl g, rfl, fun _ _ h => h⟩

lemma Store.Quiet.trans {g₁ g₂ g₃ : Store N ι V} (h : g₁.Quiet g₂) (h' : g₂.Quiet g₃) : g₁.Quiet g₃ :=
  ⟨⟨h'.now.trans h.now, h'.source.trans h.source, h'.phase.trans h.phase, h'.evicting.trans h.evicting,
    fun n => (h'.evicted n).trans (h.evicted n), fun n => (h'.generation n).trans (h.generation n)⟩,
    h'.valkey.trans h.valkey, fun n v hv => h.entry n v (h'.entry n v hv)⟩

lemma Store.Quiet.acts {g g' : Store N ι V} {l : Call N V} {pc : Pc V} (hquiet : g.Quiet g')
    (hticket : ∀ e, pc.ticketOf = some e → l.pc.ticketOf = some e)
    (hvalue : ∀ v, pc.valueOf = some v → l.pc.valueOf = some v ∨
      (∃ t, l.pc = .fetch t ∧ g.valkey.get = some (.value v)))
    (hstore : ∀ t v, pc ≠ .store t v) (hchecked : pc.isChecked = true → l.pc.isChecked = true)
    (hreturned : ∀ v, pc = .returned v → (g.l1 l.node).entry.get = some v ∨ l.pc.valueOf = some v) :
    Acts g l g' { l with pc := pc } where
  same := hquiet.toSame
  node := rfl
  valkey := .inl hquiet.valkey
  entry n v hv := .inl (hquiet.entry n v hv)
  late := .inl rfl
  ticket e he := .inl ⟨hticket e he, rfl, rfl⟩
  value v hv := ⟨rfl, (hvalue v hv).imp_right .inl⟩
  store t v h := absurd h (hstore t v)
  checked h := ⟨rfl, .inl ⟨hchecked h, rfl⟩⟩
  returned := hreturned

section SetL1

variable [DecidableEq N] (g : Store N ι V) (n : N) (x : L1 ι V)

@[simp] lemma setL1_self : (g.setL1 n x).l1 n = x := Function.update_self ..

@[simp] lemma setL1_of_ne {m : N} (h : m ≠ n) : (g.setL1 n x).l1 m = g.l1 m :=
  Function.update_of_ne h ..

variable {g n x}

lemma same_setL1 (hevicted : x.evicted = (g.l1 n).evicted)
    (hgeneration : x.generation = (g.l1 n).generation) : g.Same (g.setL1 n x) := by
  refine ⟨rfl, rfl, rfl, rfl, fun m => ?_, fun m => ?_⟩ <;> by_cases hm : m = n
  · rw [hm, setL1_self, hevicted]
  · rw [setL1_of_ne g n x hm]
  · rw [hm, setL1_self, hgeneration]
  · rw [setL1_of_ne g n x hm]

lemma quiet_setL1 (hevicted : x.evicted = (g.l1 n).evicted)
    (hgeneration : x.generation = (g.l1 n).generation)
    (hentry : ∀ v, x.entry.get = some v → (g.l1 n).entry.get = some v) : g.Quiet (g.setL1 n x) := by
  refine ⟨same_setL1 hevicted hgeneration, rfl, fun m v hv => ?_⟩
  by_cases hm : m = n
  · rw [hm, setL1_self] at hv
    exact hm ▸ hentry v hv
  · rwa [setL1_of_ne g n x hm] at hv

end SetL1

section Act

variable [DecidableEq N] [DecidableEq ι]

lemma finish_acts {i : ι} {g g' : Store N ι V} {l l' : Call N V} {pc : Pc V}
    (h : finish i g l pc = some (g', l')) (hticket : pc.ticketOf = none) (hvalue : pc.valueOf = none)
    (hstore : ∀ t v, pc ≠ .store t v) (hchecked : pc.isChecked = false)
    (hreturned : ∀ v, pc = .returned v → (g.l1 l.node).entry.get = some v ∨ l.pc.valueOf = some v) :
    Acts g l g' l' := by
  cases h
  have hquiet : g.Quiet (g.setL1 l.node ((g.l1 l.node).release i)) :=
    quiet_setL1 rfl rfl fun v hv => hv
  exact hquiet.acts (by simp [hticket]) (by simp [hvalue]) hstore (by simp [hchecked]) hreturned

/-- **What one step of a call does.** -/
lemma act_acts {i : ι} {g g' : Store N ι V} {l l' : Call N V} {k : Outcome}
    (h : act i g l k = some (g', l')) : Acts g l g' l' := by
  rw [act] at h
  cases hpc : l.pc with
  | start =>
      simp only [hpc] at h
      split at h <;> cases h <;> constructor <;>
        simp_all [Pc.ticketOf, Pc.valueOf, Pc.isChecked, Store.Same.refl]
  | negative =>
      simp only [hpc] at h
      split at h <;> cases h <;> apply (Store.Quiet.refl g).acts <;>
        simp_all [Pc.ticketOf, Pc.valueOf, Pc.isChecked]
  | ticket =>
      simp only [hpc] at h
      cases h
      constructor <;> simp_all [Pc.ticketOf, Pc.valueOf, Pc.isChecked, Store.Same.refl]
  | ticketCleared e =>
      simp only [hpc] at h
      cases h
      apply (Store.Quiet.refl g).acts <;> simp_all [Pc.ticketOf, Pc.valueOf, Pc.isChecked]
  | fetch t =>
      simp only [hpc] at h
      split at h <;> cases h <;> apply (Store.Quiet.refl g).acts <;>
        simp_all [Pc.ticketOf, Pc.valueOf, Pc.isChecked]
  | wait t =>
      simp only [hpc] at h
      split_ifs at h
      split at h
      · cases h
        have hquiet : g.Quiet (g.setL1 l.node { g.l1 l.node with gate := some i }) :=
          quiet_setL1 rfl rfl fun v hv => hv
        apply hquiet.acts <;> simp [hpc, Pc.ticketOf, Pc.valueOf, Pc.isChecked]
      · cases h
        apply (Store.Quiet.refl g).acts <;> simp [Pc.ticketOf, Pc.valueOf, Pc.isChecked]
  | again t =>
      simp only [hpc] at h
      split at h
      · next v hv => exact finish_acts h rfl rfl (by simp) rfl (by simp [hv])
      · cases h
        apply (Store.Quiet.refl g).acts <;> simp [hpc, Pc.ticketOf, Pc.valueOf, Pc.isChecked]
  | againNegative t =>
      simp only [hpc] at h
      split at h
      · next hv => exact finish_acts h rfl rfl (by simp) rfl (by simp [hv])
      · cases h
        apply (Store.Quiet.refl g).acts <;> simp [hpc, Pc.ticketOf, Pc.valueOf, Pc.isChecked]
  | load t =>
      simp only [hpc] at h
      split at h
      · cases h
        constructor <;> simp_all [Pc.ticketOf, Pc.valueOf, Pc.isChecked, Store.Same.refl]
      · exact finish_acts h rfl rfl (by simp) rfl (by simp)
  | store t v =>
      simp only [hpc] at h
      split at h
      · cases h
        apply (Store.Quiet.refl g).acts <;> simp [hpc, Pc.ticketOf, Pc.valueOf, Pc.isChecked]
      · cases h
        apply (Store.Quiet.refl g).acts <;> simp [hpc, Pc.ticketOf, Pc.valueOf, Pc.isChecked]
      · next hfree =>
          cases h
          refine ⟨⟨rfl, rfl, rfl, rfl, fun _ => rfl, fun _ => rfl⟩, rfl,
            .inr ⟨t, v, _, hpc, hfree, rfl⟩, fun n w hw => .inl hw, .inl rfl, ?_, ?_, ?_, ?_, ?_⟩ <;>
            simp [hpc, Pc.ticketOf, Pc.valueOf, Pc.isChecked]
  | check t v =>
      simp only [hpc] at h
      split_ifs at h
      · exact finish_acts h rfl rfl (by simp) rfl (by simp [hpc, Pc.valueOf])
      · cases h
        constructor <;> simp_all [Pc.ticketOf, Pc.valueOf, Pc.isChecked, Store.Same.refl]
  | checkCleared t v =>
      simp only [hpc] at h
      split_ifs at h
      · exact finish_acts h rfl rfl (by simp) rfl (by simp [hpc, Pc.valueOf])
      · cases h
        apply (Store.Quiet.refl g).acts <;> simp [hpc, Pc.ticketOf, Pc.valueOf, Pc.isChecked]
  | insert t v =>
      simp only [hpc] at h
      split at h
      · cases h
        refine ⟨same_setL1 rfl rfl, rfl, .inl rfl, fun n w hw => ?_, .inl rfl, ?_, ?_, ?_, ?_, ?_⟩
        · by_cases hn : n = l.node
          · subst hn
            rw [setL1_self] at hw
            obtain rfl : v = w := Option.some.inj hw
            exact .inr ⟨rfl, t, hpc⟩
          · rw [setL1_of_ne g l.node _ hn] at hw
            exact .inl hw
        all_goals simp [hpc, Pc.ticketOf, Pc.valueOf, Pc.isChecked]
      · cases h
  | recheck t v =>
      simp only [hpc] at h
      split_ifs at h <;> cases h <;> apply (Store.Quiet.refl g).acts <;>
        simp [hpc, Pc.ticketOf, Pc.valueOf, Pc.isChecked]
  | recheckCleared t v =>
      simp only [hpc] at h
      split_ifs at h
      · cases h
        apply (Store.Quiet.refl g).acts <;> simp [hpc, Pc.ticketOf, Pc.valueOf, Pc.isChecked]
      · exact finish_acts h rfl rfl (by simp) rfl (by simp [hpc, Pc.valueOf])
  | undo v =>
      simp only [hpc, finish] at h
      cases h
      rw [setL1_self]
      have hdropped : g.Quiet (g.setL1 l.node { g.l1 l.node with entry := none }) :=
        quiet_setL1 rfl rfl (by simp)
      have hquiet := hdropped.trans (quiet_setL1 (n := l.node)
        (x := L1.release { g.l1 l.node with entry := none } i) (by simp [L1.release]) (by simp [L1.release])
        (by simp [L1.release]))
      apply hquiet.acts <;> simp [hpc, Pc.ticketOf, Pc.valueOf, Pc.isChecked]
  | returned v => simp [hpc] at h
  | failed => simp [hpc] at h

end Act

end Ridm.Cache
