import Ridm.Core.Types

/-!
# One Valkey key

The services keep their short-lived records in Valkey, one record under one key, and every
command on a key is atomic.  A key is a `Slot`: absent, or a value with the instant it expires at
(`none`: never).  Only the commands the modelled services send are here.

The one that matters is `SET … KEEPTTL`: it keeps the lifetime of the key it overwrites, and on a
key that is **missing** it creates one, without a lifetime.
-/

namespace Ridm

/-- A stored value and when its key expires. -/
structure Entry (α : Type) where
  value : α
  deadline : Option Instant

/-- What one key holds. -/
abbrev Slot (α : Type) := Option (Entry α)

namespace Slot

variable {α : Type}

def get (k : Slot α) : Option α := k.map Entry.value

/-- `SET key value KEEPTTL`. -/
def setKeepTtl (k : Slot α) (v : α) : Slot α := some ⟨v, k.bind Entry.deadline⟩

/-- `SET key value PX ttl`, with the lifetime given as the instant it ends. -/
def setUntil (v : α) (deadline : Instant) : Slot α := some ⟨v, some deadline⟩

/-- `DEL`, and the deleting half of `GETDEL`. -/
def del (_ : Slot α) : Slot α := none

/-- The key's lifetime is over. -/
def lapsed (k : Slot α) (now : Instant) : Bool :=
  (k.bind Entry.deadline).elim false fun d => decide (d ≤ now)

/-- The server drops the key once its lifetime is over. -/
def expire (k : Slot α) (now : Instant) : Option (Slot α) :=
  if k.lapsed now then some none else none

@[simp] lemma get_none : Slot.get (none : Slot α) = none := rfl

@[simp] lemma get_some (e : Entry α) : Slot.get (some e) = some e.value := rfl

@[simp] lemma get_setKeepTtl (k : Slot α) (v : α) : (k.setKeepTtl v).get = some v := rfl

lemma get_eq_none {k : Slot α} : k.get = none ↔ k = none := Option.map_eq_none_iff

lemma expire_eq_some {k k' : Slot α} {now : Instant} (h : k.expire now = some k') :
    k.lapsed now ∧ k' = none := by
  simp only [expire] at h
  split_ifs at h with hk
  exact ⟨hk, (Option.some.inj h).symm⟩

/-- `v` is there until `t` at least: it is, and its lifetime ends no earlier, or `t` has come. -/
def Lasts (k : Slot α) (v : α) (t now : Instant) : Prop :=
  (∃ d, k = some ⟨v, some d⟩ ∧ t ≤ d) ∨ t ≤ now

section Lasts

variable {k k' : Slot α} {v : α} {t d now now' : Instant}

lemma lasts_setUntil (h : t ≤ d) : Lasts (setUntil v d) v t now := .inl ⟨d, rfl, h⟩

lemma Lasts.get (h : k.Lasts v t now) (hlt : now < t) : k.get = some v := by
  rcases h with ⟨d, rfl, -⟩ | hle
  · rfl
  · exact absurd hle (Int.not_le.mpr hlt)

lemma Lasts.later (h : k.Lasts v t now) (hle : now ≤ now') : k.Lasts v t now' :=
  h.imp_right fun ht => Int.le_trans ht hle

lemma Lasts.expire (h : k.Lasts v t now) (hexpire : k.expire now = some k') : k'.Lasts v t now := by
  obtain ⟨hlapsed, rfl⟩ := expire_eq_some hexpire
  rcases h with ⟨d, rfl, hd⟩ | hle
  · exact .inr (Int.le_trans hd (of_decide_eq_true hlapsed))
  · exact .inr hle

lemma Lasts.replace (h : k.Lasts v t now) (hother : k.get ≠ some v) : k'.Lasts v t now := by
  rcases h with ⟨d, rfl, -⟩ | hle
  · exact absurd rfl hother
  · exact .inr hle

end Lasts

end Slot

end Ridm
