import Mathlib.Data.Fintype.Basic
import Ridm.Contacts.Model

/-!
# A code proves the destination it was sent to

A `begin` discards the code of another destination, and `confirm` binds the destination that was pending
when it began.  The two keys are read and written one after the other, so two overlapping calls can leave
the destination of one beside the code of the other (`code_proves_other`).

`KeysAgree` says that what a call goes by is still what is stored where it matters: when a destination is
held, when a code is stored or put back, and when the code is read to be checked.  Then the two keys belong
together in every state, and a confirmation binds the destination of the code it accepts
(`code_proves_destination`).
-/

namespace Ridm.Contacts

open Users (Hash)
open Passwordless (OtpRecord Check checkCode checkCode_key checkCode_record storeCode newRecord)

/-- The destination a confirmation goes by, and the record. -/
def Pc.goesBy : Pc → Option (String × OtpRecord)
  | .checking destination check => check.record.map fun rec => (destination, rec)
  | .proven destination rec | .bound destination rec | .confirmed destination rec =>
      some (destination, rec)
  | _ => none

/-- No call has begun. -/
def Pc.isIdle : Pc → Bool
  | .begin_ _ | .confirm _ => true
  | _ => false

section

variable {ι : Type}

/-- The destination that is stored is the call's. -/
def Store.KeysAgree (g : Store) : Pc → Prop
  | .comparing destination previous =>
      previous.any (· ≠ destination) = true ∨ g.code = none ∨ g.pending.get = some destination
  | .holding destination | .checking destination (.idle _) =>
      g.code = none ∨ g.pending.get = some destination
  | .storing destination => ∀ p ∈ g.pending.get, p = destination
  | .checking destination (.rejecting rec) =>
      rec.isSpent = true ∨ ∀ p ∈ g.pending.get, p = destination
  | _ => True

instance (g : Store) : DecidablePred g.KeysAgree := by
  intro l
  unfold Store.KeysAgree
  split <;> infer_instance

/-- **Both keys are one destination's** wherever a call goes by them: when it holds a destination there is
no code, or one for it; when it stores a code or puts one back no other destination is held; and when it
reads the code the destination it has read is still held. -/
def KeysAgree (w : Pool ι Store Pc) : Pick ι Outcome Env → Prop
  | .call i _ => w.shared.KeysAgree (w.calls i)
  | .env _ => True

instance (w : Pool ι Store Pc) : DecidablePred (KeysAgree w)
  | .call i _ => inferInstanceAs (Decidable (w.shared.KeysAgree (w.calls i)))
  | .env _ => .isTrue trivial

/-- **A code proves its destination**: what a confirmation binds is where the code it accepted was
sent. -/
def ProvesDestination (w : Pool ι Store Pc) : Prop :=
  ∀ i destination rec, w.calls i = .bound destination rec ∨ w.calls i = .confirmed destination rec →
    rec.sentTo = destination

/-- The stored code was sent to the destination that is held. -/
def Store.Together (g : Store) : Prop :=
  ∀ p rec, g.pending.get = some p → g.code.get = some rec → rec.sentTo = p

/-- The code a call goes by was sent to the destination it goes by. -/
def Pc.Matches (l : Pc) : Prop := ∀ destination rec, l.goesBy = some (destination, rec) →
  rec.sentTo = destination

/-- **The invariant.** -/
structure Inv (w : Pool ι Store Pc) : Prop where
  together : w.shared.Together
  held : ∀ i, (w.calls i).Matches

lemma Inv.proves {w : Pool ι Store Pc} (h : Inv w) : ProvesDestination w := by
  intro i destination rec hi
  refine h.held i destination rec ?_
  rcases hi with hi | hi <;> rw [hi] <;> rfl

/-! ## What one step keeps -/

lemma Pc.matches_of_goesBy_none {l : Pc} (h : l.goesBy = none) : l.Matches := by
  intro destination rec hl
  rw [h] at hl
  cases hl

variable {hash : Hash} {service : Service} {user : Uuid} {g g' : Store} {l l' : Pc} {drawn : String}

lemma Store.together_of_no_code (h : g.code = none) : g.Together := by
  intro p rec _ hrec
  rw [h] at hrec
  cases hrec

lemma Store.together_of_no_pending (h : g.pending = none) : g.Together := by
  intro p rec hp
  rw [h] at hp
  cases hp

lemma Store.Together.hold {destination : String} (h : g.Together)
    (hC : g.code = none ∨ g.pending.get = some destination) : (hold service g destination).Together := by
  rcases hC with hnone | hsame
  · exact Store.together_of_no_code hnone
  · intro p rec hp hrec
    cases hp
    exact h destination rec hsame hrec

lemma settle_matches {destination : String} {check : Check}
    (h : ∀ rec, check.record = some rec → rec.sentTo = destination) :
    (settle service user destination check).Matches := by
  have hrefuse : (settle.refuse service).Matches := by
    cases service <;> exact Pc.matches_of_goesBy_none rfl
  have hchecking : (Pc.checking destination check).Matches := by
    intro d rec hl
    obtain ⟨rec', hrec, heq⟩ := Option.map_eq_some_iff.mp hl
    cases heq
    exact h rec hrec
  cases check with
  | accepted rec =>
      simp only [settle]
      split_ifs
      · intro d rec' hl
        cases hl
        exact h rec rfl
      · exact hrefuse
  | absent => exact hrefuse
  | rejected rec => exact hrefuse
  | _ => exact hchecking

/-- **A step of `check_code`** on its way: the key it writes back was sent where the call's was. -/
lemma together_checkCode {destination : String} {check check' : Check} {key : Slot OtpRecord}
    (h : g.Together) (hl : (Pc.checking destination check).Matches)
    (hC : g.KeysAgree (.checking destination check))
    (hcheck : checkCode hash g.now g.code check = some (key, check')) :
    { g with code := key }.Together ∧ ∀ rec, check'.record = some rec → rec.sentTo = destination := by
  constructor
  · rcases checkCode_key hcheck with rfl | rfl | ⟨rec, n, d, rfl, hspent, rfl⟩
    · exact h
    · exact Store.together_of_no_code rfl
    · intro p rec' hp hrec'
      obtain rfl := Option.some.inj hrec'
      rcases hC with hC | hC
      · rw [hspent] at hC
        cases hC
      · rw [hC p hp]
        exact hl destination rec rfl
  · intro rec hrec
    rcases checkCode_record hcheck hrec with hold | ⟨⟨code, rfl⟩, hget⟩
    · exact hl destination rec (by rw [Pc.goesBy, hold]; rfl)
    · rcases hC with hnone | hsame
      · rw [hnone] at hget
        cases hget
      · exact h destination rec hsame hget

/-- **What a step keeps**, when the keys are the call's. -/
lemma act_keeps (h : g.Together) (hl : l.Matches) (hC : g.KeysAgree l)
    (hstep : act hash service user g drawn l = some (g', l')) : g'.Together ∧ l'.Matches := by
  cases l with
  | begin_ destination =>
      cases hstep
      exact ⟨h, Pc.matches_of_goesBy_none rfl⟩
  | comparing destination previous =>
      simp only [act] at hstep
      split_ifs at hstep with hother
      · cases hstep
        exact ⟨Store.together_of_no_code rfl, Pc.matches_of_goesBy_none rfl⟩
      · cases hstep
        exact ⟨h.hold (hC.resolve_left hother), Pc.matches_of_goesBy_none rfl⟩
  | holding destination =>
      cases hstep
      exact ⟨h.hold hC, Pc.matches_of_goesBy_none rfl⟩
  | claiming destination =>
      simp only [act] at hstep
      split_ifs at hstep <;> cases hstep <;> exact ⟨h, Pc.matches_of_goesBy_none rfl⟩
  | limiting destination =>
      cases hstep
      exact ⟨h, Pc.matches_of_goesBy_none rfl⟩
  | storing destination =>
      cases hstep
      refine ⟨?_, Pc.matches_of_goesBy_none rfl⟩
      -- the code is the call's, and so is what is held
      intro p rec hp hrec
      obtain rfl := Option.some.inj hrec
      exact (hC p hp).symm
  | delivering destination code =>
      cases hstep
      exact ⟨h, Pc.matches_of_goesBy_none rfl⟩
  | confirm code =>
      simp only [act] at hstep
      split at hstep <;> cases hstep <;> exact ⟨h, Pc.matches_of_goesBy_none rfl⟩
  | checking destination check =>
      obtain ⟨⟨key, check'⟩, hcheck, heq⟩ := Option.map_eq_some_iff.mp hstep
      cases heq
      obtain ⟨hg', hrec⟩ := together_checkCode h hl hC hcheck
      exact ⟨hg', settle_matches hrec⟩
  | proven destination rec =>
      cases hstep
      exact ⟨h, hl⟩
  | bound destination rec =>
      cases service <;> cases hstep
      · exact ⟨Store.together_of_no_pending rfl, hl⟩
      · exact ⟨Store.together_of_no_code rfl, hl⟩
  | closing =>
      cases hstep
      refine ⟨h, Pc.matches_of_goesBy_none ?_⟩
      split_ifs <;> rfl
  | cancelling =>
      cases hstep
      exact ⟨Store.together_of_no_code rfl, Pc.matches_of_goesBy_none rfl⟩
  | _ => cases hstep

lemma env_keeps {e : Env} (h : g.Together) (hstep : env g e = some g') : g'.Together := by
  cases e with
  | tick d =>
      cases hstep
      exact h
  | lapse key =>
      cases key with
      | pending =>
          obtain ⟨key, hkey, rfl⟩ := Option.map_eq_some_iff.mp hstep
          exact Store.together_of_no_pending (Slot.expire_eq_some hkey).2
      | code =>
          obtain ⟨key, hkey, rfl⟩ := Option.map_eq_some_iff.mp hstep
          exact Store.together_of_no_code (Slot.expire_eq_some hkey).2
      | cooldown =>
          obtain ⟨key, -, rfl⟩ := Option.map_eq_some_iff.mp hstep
          exact h

/-! ## Whole schedules -/

variable [DecidableEq ι] {w w' : Pool ι Store Pc} {i : ι} {as : List (Pick ι Outcome Env)}

lemma Inv.next (h : Inv w) (hg' : g'.Together) (hl' : l'.Matches) : Inv (w.next i g' l') := by
  exact ⟨hg', Pool.next_forall (p := fun _ => Pc.Matches) hl' fun j _ => h.held j⟩

/-- **A code proves only the destination it was sent to**, in every schedule of any number of `begin`s and
`confirm`s, whatever they name and whichever of their steps fail, in which the keys are the calls' own. -/
theorem code_proves_destination (hidle : ∀ i, (w.calls i).isIdle = true)
    (htogether : w.shared.Together)
    (hmeets : (calls hash service user ι).machine.Meets KeysAgree w as)
    (hrun : (calls hash service user ι).machine.run w as = some w') : ProvesDestination w' := by
  refine Inv.proves (Calls.run_inv (I := Inv) ?_ ?_ hmeets hrun ?_)
  · intro w i k g' l' h hC hstep
    cases k with
    | ok drawn =>
        obtain ⟨hg', hl'⟩ := act_keeps h.together (h.held i) hC hstep
        exact h.next hg' hl'
    | error e =>
        obtain ⟨_, _, heq⟩ := Option.map_eq_some_iff.mp hstep
        cases heq
        exact h.next h.together (Pc.matches_of_goesBy_none rfl)
  · intro w e g' h _ hstep
    exact ⟨env_keeps h.together hstep, h.held⟩
  · refine ⟨htogether, ?_⟩
    intro i
    have hi := hidle i
    refine Pc.matches_of_goesBy_none ?_
    cases hl : w.calls i <;> rw [hl] at hi <;> first | rfl | cases hi

end

/-! ## The schedule that goes wrong -/

def sha256 (code : String) : String :=
  if code = "123456" then "jZae727K08KaOmKSgOaGzww_XVqGr_PKEgIMkjrcbJI"
  else if code = "654321" then "SBNJTRN-F1sCXp1brEzyrZFR6_z8TZsdM0Vpx4mlo2E"
  else "other"

def twoNumbers : Pool (Fin 4) Store Pc where
  shared := ⟨seconds 0, none, none, none⟩
  calls
    | 0 => .begin_ "+15550100"
    | 1 => .begin_ "+15550199"
    | 2 => .confirm "123456"
    | 3 => .confirm "654321"

def turns (i : Fin 4) (n : ℕ) (code : String) : List (Pick (Fin 4) Outcome Env) :=
  List.replicate n (.call i (.ok code))

def overlapping : List (Pick (Fin 4) Outcome Env) :=
  turns 0 1 "" ++ turns 1 1 "" ++ turns 0 1 "" ++ turns 1 1 "" ++ turns 0 4 "123456" ++ turns 1 1 ""

/-- **The code sent to one number proves another**, for either service. -/
theorem code_proves_other :
    (∀ i, (twoNumbers.calls i).isIdle = true) ∧ twoNumbers.shared.Together ∧
    (∃ w rec, (calls sha256 (.enrolment "SMS code") 7 (Fin 4)).machine.run twoNumbers
        (overlapping ++ turns 2 5 "") = some w ∧
      w.calls 2 = .bound "+15550199" rec ∧ rec.sentTo = "+15550100" ∧ ¬ ProvesDestination w) ∧
    ∃ w rec, (calls sha256 (.contactChange "phone") 7 (Fin 4)).machine.run twoNumbers
        (overlapping ++ turns 2 5 "") = some w ∧
      w.calls 2 = .bound "+15550199" rec ∧ rec.sentTo = "+15550100" ∧ ¬ ProvesDestination w := by
  refine ⟨by decide, Store.together_of_no_code rfl, ⟨_, _, rfl, rfl, rfl, fun h => ?_⟩,
    ⟨_, _, rfl, rfl, rfl, fun h => ?_⟩⟩
  · exact absurd (h 2 _ _ (.inl rfl)) (by decide)
  · exact absurd (h 2 _ _ (.inl rfl)) (by decide)

/-- One after the other, the first code is discarded and refused, and the second one proves its number. -/
theorem code_proves_destination_inTurn :
    ∃ w rec, (calls sha256 (.enrolment "SMS code") 7 (Fin 4)).machine.run twoNumbers
        (turns 0 6 "123456" ++ turns 1 7 "654321" ++ turns 2 4 "" ++ turns 3 6 "") = some w ∧
      w.calls 2 = .refused ∧ w.calls 3 = .confirmed "+15550199" rec ∧ rec.sentTo = "+15550199" ∧
      ProvesDestination w := by
  refine ⟨_, _, rfl, rfl, rfl, rfl, ?_⟩
  have hmeets : (calls sha256 (.enrolment "SMS code") 7 (Fin 4)).machine.Meets KeysAgree twoNumbers
      (turns 0 6 "123456" ++ turns 1 7 "654321" ++ turns 2 4 "" ++ turns 3 6 "") := by decide
  exact code_proves_destination (by decide) (Store.together_of_no_code rfl) hmeets rfl

end Ridm.Contacts
