import Ridm.Kerberos.Acceptor
import Ridm.Lib.ExpiringMarks

/-!
# Authenticators are accepted once

The replay guard of `negotiate` in `api/src/services/kerberos.rs`.  An AP-REQ that the acceptor accepts sets
a marker under the hash of its authenticator, which lives for twice the clock skew and a minute.  The client
time is a whole second of the client's choice, and the acceptor takes it up to one skew before and after its
own clock.  So two clocks that accept one authenticator are two skews apart at most, and the marker
outlasts the second by a minute (`marker_outlasts`): `authenticator_accepted_once`.
-/

namespace Ridm.Kerberos

/-- A provider, as far as tickets are checked for it. -/
structure Provider where
  keys : List KeytabEntry
  service : Principal
  realms : List String
  maxSkewSeconds : ℤ

namespace Provider

/-- The clock skew that is allowed, in seconds. -/
def skew (p : Provider) : ℤ := max 30 (min p.maxSkewSeconds 900)

def acceptor (p : Provider) : Acceptor := ⟨p.keys, p.service, p.realms, seconds p.skew⟩

/-- How long a marker lives, in seconds. -/
def markerSecs (p : Provider) : ℤ := 2 * p.skew + 60

end Provider

/-- `Refusal`, as far as the ticket decides. -/
inductive Refusal
  | invalid (e : AcceptError)
  | replay

/-- One use of an AP-REQ: when the clock was read for the acceptor, and when the marker was asked for. -/
structure Use where
  tenantId : Uuid
  provider : Provider
  apReq : List UInt8
  now : Instant
  setAt : Instant

/-- The replay markers, by tenant and hash. -/
abbrev Markers := Marks (Uuid × String) Instant

section

variable (P : Platform)

/-- `negotiate` from the acceptor to the replay guard (`SET NX EX`). -/
def negotiate (u : Use) (markers : Markers) : Except Refusal Accepted × Markers :=
  match accept P u.provider.acceptor u.now u.apReq with
  | .error e => (.error (.invalid e), markers)
  | .ok accepted =>
      let set := markers.claim (u.tenantId, accepted.replayKey) u.setAt
        (u.setAt + seconds u.provider.markerSecs)
      (if set.1 then .ok accepted else .error .replay, set.2)

def Accepts (u : Use) (accepted : Accepted) : Prop :=
  accept P u.provider.acceptor u.now u.apReq = .ok accepted

/-- Uses as they claim markers. -/
def guardedUses : Guarded Use (Uuid × String) Instant where
  time := Use.setAt
  key u := ((accept P u.provider.acceptor u.now u.apReq).toOption).map fun accepted =>
    (u.tenantId, accepted.replayKey)
  deadline u := u.setAt + seconds u.provider.markerSecs

end

section

variable {P : Platform} {u v : Use} {r r' : Accepted} {markers : Markers}

/-- Two uses of one AP-REQ at one provider. -/
structure Use.Same (u v : Use) : Prop where
  tenantId : u.tenantId = v.tenantId
  provider : u.provider = v.provider
  apReq : u.apReq = v.apReq

lemma le_add_two_skews {c a b s : ℤ} (ha : ((c - a).natAbs : ℤ) ≤ seconds s)
    (hb : ((c - b).natAbs : ℤ) ≤ seconds s) : b ≤ a + seconds (2 * s) := by
  simp only [seconds] at ha hb ⊢
  omega

lemma add_minute_le {a b c s : ℤ} (hb : b ≤ a + seconds (2 * s)) (hc : a ≤ c) :
    b + seconds 60 ≤ c + seconds (2 * s + 60) := by
  simp only [seconds] at hb ⊢
  omega

/-- **Both uses are of one client time**, and go by one replay key. -/
lemma Accepts.same (hu : Accepts P u r) (hv : Accepts P v r') (hsame : u.Same v) :
    r.replayKey = r'.replayKey ∧ v.now ≤ u.now + seconds (2 * u.provider.skew) := by
  obtain ⟨ctime, hfresh, hclose⟩ := accept_eq_ok hu
  obtain ⟨ctime', hfresh', hclose'⟩ := accept_eq_ok hv
  rw [← hsame.provider, ← hsame.apReq, hfresh] at hfresh'
  obtain ⟨rfl, hkey⟩ := Prod.mk.inj (Except.ok.inj hfresh')
  rw [← hsame.provider] at hclose'
  exact ⟨hkey, le_add_two_skews hclose hclose'⟩

/-- **A marker outlasts the authenticator** by a minute. -/
lemma marker_outlasts (hu : Accepts P u r) (hv : Accepts P v r') (hsame : u.Same v)
    (hset : u.now ≤ u.setAt) : v.now + seconds 60 ≤ u.setAt + seconds u.provider.markerSecs :=
  add_minute_le (hu.same hv hsame).2 hset

lemma negotiate_of_accepts (hu : Accepts P u r) : negotiate P u markers =
    (if (markers.claim (u.tenantId, r.replayKey) u.setAt (u.setAt + seconds u.provider.markerSecs)).1
      then .ok r else .error .replay,
      (markers.claim (u.tenantId, r.replayKey) u.setAt (u.setAt + seconds u.provider.markerSecs)).2) := by
  rw [negotiate, show accept P u.provider.acceptor u.now u.apReq = .ok r from hu]

lemma key_of_accepts (hu : Accepts P u r) : (guardedUses P).key u = some (u.tenantId, r.replayKey) := by
  show ((accept P u.provider.acceptor u.now u.apReq).toOption).map _ = _
  rw [show accept P u.provider.acceptor u.now u.apReq = .ok r from hu]
  rfl

lemma accepts_of_key {k : Uuid × String} (h : (guardedUses P).key u = some k) : ∃ r, Accepts P u r := by
  rw [guardedUses, Option.map_eq_some_iff] at h
  obtain ⟨r, hr, -⟩ := h
  exact ⟨r, toOption_eq_some.mp hr⟩

lemma attempt_guardedUses : (negotiate P u markers).1.isOk = ((guardedUses P).attempt markers u).1 ∧
    (negotiate P u markers).2 = ((guardedUses P).attempt markers u).2 := by
  cases haccept : accept P u.provider.acceptor u.now u.apReq with
  | error e =>
      have hkey : (guardedUses P).key u = none := by
        show ((accept P u.provider.acceptor u.now u.apReq).toOption).map _ = _
        rw [haccept]
        rfl
      rw [negotiate, haccept, Guarded.attempt, hkey]
      exact ⟨rfl, rfl⟩
  | ok r =>
      rw [negotiate_of_accepts haccept, Guarded.attempt, key_of_accepts haccept]
      refine ⟨?_, rfl⟩
      show (if (markers.claim _ _ _).1 then _ else _ : Except Refusal Accepted).isOk = (markers.claim _ _ _).1
      split_ifs with hset
      · exact hset.symm
      · exact (Bool.eq_false_iff.mpr hset).symm

/-- The uses of a history that get through, with the markers as each finds them. -/
def getThrough (P : Platform) : Markers → List Use → List Use
  | _, [] => []
  | markers, u :: us =>
      if (negotiate P u markers).1.isOk then u :: getThrough P (negotiate P u markers).2 us
      else getThrough P (negotiate P u markers).2 us

lemma getThrough_eq (markers : Markers) (us : List Use) :
    getThrough P markers us = (guardedUses P).accepted markers us := by
  induction us generalizing markers with
  | nil => rfl
  | cons u us ih =>
      rw [getThrough, Guarded.accepted, attempt_guardedUses.1, attempt_guardedUses.2, ih]

/-- **An authenticator is accepted once.**  The marker that a first use of an AP-REQ sets is there at every
moment up to a minute behind the clock of any other use that the acceptor accepts, so that use is refused; and
of any history of uses, of this and of other requests, in the order in which they ask for their markers, each
within a minute of its clock, no two that get through are of one AP-REQ. -/
theorem authenticator_accepted_once (P : Platform) :
    (∀ u v r r' markers, Accepts P u r → Accepts P v r' → u.Same v → u.now ≤ u.setAt →
      (negotiate P u markers).1 = .ok r → ∀ t, t < v.now + seconds 60 →
        (negotiate P u markers).2.isThere (u.tenantId, r.replayKey) t = true ∧
        (t = v.setAt → (negotiate P v (negotiate P u markers).2).1 = .error .replay)) ∧
    ∀ markers us, (List.Pairwise (fun u v : Use => u.setAt ≤ v.setAt) us) →
      (∀ u ∈ us, u.now ≤ u.setAt ∧ u.setAt < u.now + seconds 60) →
      (getThrough P markers us).Pairwise fun u v => ¬ u.Same v := by
  constructor
  · intro u v r r' markers hu hv hsame hset hthrough t ht
    have hlast := marker_outlasts hu hv hsame hset
    have hfree : markers.isThere (u.tenantId, r.replayKey) u.setAt = false := by
      rw [negotiate_of_accepts hu, Marks.claim_fst] at hthrough
      cases hthere : markers.isThere (u.tenantId, r.replayKey) u.setAt with
      | false => rfl
      | true => simp [hthere] at hthrough
    have hthere : (negotiate P u markers).2.isThere (u.tenantId, r.replayKey) t = true := by
      rw [negotiate_of_accepts hu, Marks.isThere_claim hfree, decide_eq_true_eq]
      exact lt_of_lt_of_le ht hlast
    refine ⟨hthere, ?_⟩
    rintro rfl
    rw [negotiate_of_accepts hv, Marks.claim_fst, ← (hu.same hv hsame).1, ← hsame.tenantId, hthere]
    rfl
  · intro markers us hsorted hprompt
    rw [getThrough_eq]
    refine List.Pairwise.imp_of_mem ?_ (Guarded.accepted_pairwise (G := guardedUses P) markers hsorted)
    intro u v hmem hmem' hapart hsame
    obtain ⟨k, hk⟩ := Guarded.key_of_accepted hmem
    obtain ⟨k', hk'⟩ := Guarded.key_of_accepted hmem'
    obtain ⟨r, hu⟩ := accepts_of_key hk
    obtain ⟨r', hv⟩ := accepts_of_key hk'
    have hkey : (guardedUses P).key u = (guardedUses P).key v := by
      rw [key_of_accepts hu, key_of_accepts hv, (hu.same hv hsame).1, hsame.tenantId]
    have hpast : u.setAt + seconds u.provider.markerSecs ≤ v.setAt := hapart hkey
    have hlast := marker_outlasts hu hv hsame (hprompt u (Guarded.accepted_sublist.subset hmem)).1
    have hsoon := (hprompt v (Guarded.accepted_sublist.subset hmem')).2
    exact absurd (hpast.trans_lt hsoon) (not_lt.mpr hlast)

end

/-! ## A replay -/

def plainPlatform : Platform where
  decrypt _ _ _ data := .ok data
  apRep _ _ _ := .ok []
  hexSha256 data := String.ofList (data.map fun b => Char.ofNat b.toNat)

def sampleProvider : Provider where
  keys := [⟨⟨["HTTP", "h"], "R"⟩, 1, 17, List.replicate 16 0⟩]
  service := ⟨["HTTP", "h"], "R"⟩
  realms := ["R"]
  maxSkewSeconds := 300

def sampleRequest : List UInt8 := [
  110, 129, 248, 48, 129, 245, 160, 3, 2, 1, 5, 161, 3, 2, 1, 14, 162, 7, 3, 5, 0, 0, 0, 0, 0, 163,
  129, 156, 97, 129, 153, 48, 129, 150, 160, 3, 2, 1, 5, 161, 3, 27, 1, 82, 162, 20, 48, 18, 160, 3,
  2, 1, 1, 161, 11, 48, 9, 27, 4, 72, 84, 84, 80, 27, 1, 104, 163, 116, 48, 114, 160, 3, 2, 1, 17,
  162, 107, 4, 105, 99, 103, 48, 101, 160, 7, 3, 5, 0, 0, 0, 0, 0, 161, 27, 48, 25, 160, 3, 2, 1,
  17, 161, 18, 4, 16, 0, 0, 0, 0, 0, 0, 0, 0, 0, 0, 0, 0, 0, 0, 0, 0, 162, 3, 27, 1, 82, 163, 14,
  48, 12, 160, 3, 2, 1, 1, 161, 5, 48, 3, 27, 1, 97, 164, 2, 48, 0, 165, 17, 24, 15, 50, 48, 50, 54,
  48, 57, 50, 50, 49, 50, 48, 48, 48, 48, 90, 167, 17, 24, 15, 50, 48, 50, 54, 48, 57, 50, 50, 50,
  50, 48, 48, 48, 48, 90, 164, 65, 48, 63, 160, 3, 2, 1, 17, 162, 56, 4, 54, 98, 52, 48, 50, 160, 3,
  2, 1, 5, 161, 3, 27, 1, 82, 162, 14, 48, 12, 160, 3, 2, 1, 1, 161, 5, 48, 3, 27, 1, 97, 164, 3, 2,
  1, 9, 165, 17, 24, 15, 50, 48, 50, 54, 48, 57, 50, 50, 49, 50, 51, 52, 53, 54, 90]

def sampleUse (late : ℤ) : Use :=
  ⟨1, sampleProvider, sampleRequest, seconds (1790080496 + late), seconds (1790080496 + late)⟩

lemma accepts_sampleUse {late : ℤ} (hlate : late = -300 ∨ late = 300) :
    ∃ r, Accepts plainPlatform (sampleUse late) r := by
  have hok : (accept plainPlatform sampleProvider.acceptor (sampleUse late).now sampleRequest).isOk = true := by
    rcases hlate with rfl | rfl <;> decide +kernel
  cases haccept : accept plainPlatform sampleProvider.acceptor (sampleUse late).now sampleRequest with
  | error e =>
      rw [haccept] at hok
      cases hok
  | ok r => exact ⟨r, haccept⟩

/-- Five minutes before its time the authenticator is accepted, and five minutes after it is a replay. -/
theorem authenticator_accepted_once_sample :
    (negotiate plainPlatform (sampleUse 300) (negotiate plainPlatform (sampleUse (-300)) Marks.empty).2).1 =
      .error .replay := by
  obtain ⟨r, hfirst⟩ := accepts_sampleUse (.inl rfl)
  obtain ⟨r', hsecond⟩ := accepts_sampleUse (.inr rfl)
  have hthrough : (negotiate plainPlatform (sampleUse (-300)) Marks.empty).1 = .ok r := by
    rw [negotiate_of_accepts hfirst, Marks.claim_fst]
    rfl
  exact ((authenticator_accepted_once plainPlatform).1 _ _ r r' _ hfirst hsecond ⟨rfl, rfl, rfl⟩ le_rfl hthrough
    _ (by decide)).2 rfl

end Ridm.Kerberos
