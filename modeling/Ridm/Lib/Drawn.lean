import Mathlib.Logic.Basic

/-!
# What is drawn once

Parties draw tokens, each different from all before (a counter, a salt), hold one in hand for a while, and
then put it to use, where others may read it.  `Drawn` says that a token in hand is in nobody else's, and is
not in use yet, in whatever order those who drew put theirs to use.  So something that is put to use now
differs from everything that was in use before.

Its rules are one for each thing a step may do: nothing new is used (`mono`), a token is drawn (`draw`), the
token in hand is put to use (`use`).
-/

/-- `past`: drawn at some time, or never to be drawn; `used`: in use somewhere; `hand`: what each party
holds. -/
structure Drawn {ι α : Type*} (past used : α → Prop) (hand : ι → Option α) : Prop where
  used_past : ∀ {a}, used a → past a
  hand_past : ∀ {r a}, hand r = some a → past a
  unused : ∀ {r a}, hand r = some a → ¬ used a
  once : ∀ {r s a}, hand r = some a → hand s = some a → r = s

namespace Drawn

variable {ι α : Type*} {past past' used used' : α → Prop} {hand hand' : ι → Option α}

lemma of_none (hused : ∀ {a}, used a → past a) (hhand : ∀ r, hand r = none) : Drawn past used hand where
  used_past := hused
  hand_past h := by simp [hhand] at h
  unused h := by simp [hhand] at h
  once h := by simp [hhand] at h

lemma mono (h : Drawn past used hand) (hpast : ∀ {a}, past a → past' a) (hused : ∀ {a}, used' a → used a)
    (hhand : ∀ {r a}, hand' r = some a → hand r = some a) : Drawn past' used' hand' where
  used_past ha := hpast (h.used_past (hused ha))
  hand_past ha := hpast (h.hand_past (hhand ha))
  unused ha hu := h.unused (hhand ha) (hused hu)
  once hr hs := h.once (hhand hr) (hhand hs)

/-- **Drawing** a token that is not of the past. -/
lemma draw (h : Drawn past used hand) {i : ι} {b : α} (hb : ¬ past b) (hb' : past' b)
    (hpast : ∀ {a}, past a → past' a) (hused : ∀ {a}, used' a → used a)
    (hhand : ∀ {r a}, hand' r = some a → r = i ∧ a = b ∨ hand r = some a) : Drawn past' used' hand' where
  used_past ha := hpast (h.used_past (hused ha))
  hand_past ha := by
    rcases hhand ha with ⟨-, rfl⟩ | ha
    · exact hb'
    · exact hpast (h.hand_past ha)
  unused ha hu := by
    rcases hhand ha with ⟨-, rfl⟩ | ha
    · exact hb (h.used_past (hused hu))
    · exact h.unused ha (hused hu)
  once hr hs := by
    rcases hhand hr with ⟨hri, ha⟩ | hr
    · rcases hhand hs with ⟨hsi, -⟩ | hs
      · rw [hri, hsi]
      · exact absurd (h.hand_past hs) (ha ▸ hb)
    · rcases hhand hs with ⟨-, ha⟩ | hs
      · exact absurd (h.hand_past hr) (ha ▸ hb)
      · exact h.once hr hs

/-- **Putting to use** what is in hand. -/
lemma use (h : Drawn past used hand) {i : ι} {b : α} (hb : hand i = some b)
    (hpast : ∀ {a}, past a → past' a) (hused : ∀ {a}, used' a → used a ∨ a = b)
    (hhand : ∀ {r a}, hand' r = some a → r ≠ i ∧ hand r = some a) : Drawn past' used' hand' where
  used_past ha := by
    rcases hused ha with ha | rfl
    · exact hpast (h.used_past ha)
    · exact hpast (h.hand_past hb)
  hand_past ha := hpast (h.hand_past (hhand ha).2)
  unused ha hu := by
    obtain ⟨hri, ha⟩ := hhand ha
    rcases hused hu with hu | rfl
    · exact h.unused ha hu
    · exact hri (h.once ha hb)
  once hr hs := h.once (hhand hr).2 (hhand hs).2

end Drawn
