import Ridm.Core.Types
import Ridm.Lib.Interleaving

/-!
# Passkey assertions

`finish_authentication` and `record_use` of `api/src/services/passkeys.rs`, over the ceremony of
`api/src/webauthn/ceremony.rs` and the stored key of `api/src/webauthn/stored.rs`.

An assertion is checked against a copy of the credential's row, its sign counter among other
things.  What it reports is then put into that copy, and if anything changed the copy is written
over the row, whatever the row holds by then.

What the ceremony reads out of bytes, and the signature, are parameters (`RelyingParty`).  Byte
strings are texts here.
-/

namespace Ridm.Passkeys

/-- `StoredCredential`, as far as assertions read or change it. -/
structure StoredPasskey where
  credId : String
  key : String
  counter : ℕ
  backupEligible : Bool
  backupState : Bool

/-- A checked assertion. -/
structure Assertion where
  credId : String
  counter : ℕ
  userVerified : Bool
  backupEligible : Bool
  backupState : Bool

/-- `StoredPasskey::update`: the key afterwards, and whether anything changed. -/
def StoredPasskey.update (key : StoredPasskey) (a : Assertion) : StoredPasskey × Bool :=
  if a.credId ≠ key.credId then (key, false)
  else
    let key' : StoredPasskey :=
      { key with
        counter := if key.counter < a.counter then a.counter else key.counter
        backupState := a.backupState
        backupEligible := key.backupEligible || a.backupEligible }
    (key', decide (key.counter < a.counter) || a.backupState != key.backupState ||
      (a.backupEligible && !key.backupEligible))

/-! ## The ceremony -/

/-- `AuthData`, of an assertion. -/
structure AuthData where
  rpIdHash : String
  up : Bool
  uv : Bool
  be : Bool
  bs : Bool
  counter : ℕ

/-- `PublicKeyCredential`: the browser's answer. -/
structure PublicKeyCredential where
  rawId : String
  authenticatorData : String
  clientDataJson : String
  signature : String

/-- `AuthenticationState`: what the answer is held against. -/
structure AuthenticationState where
  challenge : String
  allowed : List String
  allowBackupEligibleUpgrade : Bool

/-- `RelyingParty`, with the code that reads bytes. -/
structure RelyingParty where
  idHash : String
  /-- `AuthData::parse`. -/
  parseAuthData : String → Except String AuthData
  /-- `ClientData::parse` and `check`, of the answer's client data against a challenge. -/
  checkClientData : String → String → Except String Unit
  /-- The signature over the authenticator data and the hash of the client data. -/
  verifies : StoredPasskey → PublicKeyCredential → Bool

/-- The counter check: a counter has to advance, unless there is none on either side. -/
def counterAdvances (reported stored : ℕ) : Bool :=
  !((decide (0 < reported) || decide (0 < stored)) && decide (reported ≤ stored))

/-- `RelyingParty::finish_authentication`. -/
def RelyingParty.finishAuthentication (rp : RelyingParty) (credential : PublicKeyCredential)
    (state : AuthenticationState) (passkey : StoredPasskey) : Except String Assertion := do
  require "a different credential" (credential.rawId == passkey.credId)
  require "the credential was not asked for"
    (state.allowed.isEmpty || state.allowed.contains credential.rawId)
  let data ← rp.parseAuthData credential.authenticatorData
  rp.checkClientData credential.clientDataJson state.challenge
  require "the relying party id hash differs" (data.rpIdHash == rp.idHash)
  require "the user was not present" data.up
  require "the user was not verified" data.uv
  require "backup eligibility changed"
    (passkey.backupEligible == data.be ||
      (state.allowBackupEligibleUpgrade && !passkey.backupEligible && data.be))
  require "backed up but not backup eligible" (!(data.bs && !passkey.backupEligible))
  require "the signature does not verify" (rp.verifies passkey credential)
  require "the counter did not advance (a cloned credential?)"
    (counterAdvances data.counter passkey.counter)
  .ok
    { credId := credential.rawId
      counter := data.counter
      userVerified := data.uv
      backupEligible := data.be
      backupState := data.bs }

/-! ## Calls -/

/-- Where a call of `finish_authentication` stands. -/
inductive Pc
  | pending (credential : PublicKeyCredential) (state : AuthenticationState)
  | loaded (credential : PublicKeyCredential) (state : AuthenticationState) (key : StoredPasskey)
  | recording (key : StoredPasskey) (result : Assertion)
  | verified (result : Assertion)
  | refused (reason : String)

/-- The next step of a call, over the credential's row. -/
def act (rp : RelyingParty) (row : StoredPasskey) : Pc → Option (StoredPasskey × Pc)
  | .pending credential state => some (row, .loaded credential state row)
  | .loaded credential state key =>
      match rp.finishAuthentication credential state key with
      | .ok result => some (row, .recording key result)
      | .error reason => some (row, .refused reason)
  | .recording key result =>
      -- `update_data` writes the copy; `touch_last_used` leaves the key alone
      let (key', changed) := key.update result
      some (if changed then key' else row, .verified result)
  | .verified _ => none
  | .refused _ => none

/-- Any number of assertions with one passkey. -/
def calls (ι : Type) (rp : RelyingParty) : Calls ι StoredPasskey Pc Unit Empty where
  act _ row l _ := act rp row l
  env _ e := nomatch e

/-! ## What an assertion that verifies says -/

lemma counterAdvances_iff {reported stored : ℕ} :
    counterAdvances reported stored = true ↔ stored < reported ∨ reported = 0 ∧ stored = 0 := by
  simp only [counterAdvances, Bool.not_eq_true', Bool.and_eq_false_iff, Bool.or_eq_false_iff,
    decide_eq_false_iff_not]
  omega

/-- **What the ceremony lets through**: an assertion by the key's own credential whose counter is
ahead of the copy it was checked against. -/
lemma finishAuthentication_ok {rp : RelyingParty} {credential : PublicKeyCredential}
    {state : AuthenticationState} {key : StoredPasskey} {a : Assertion}
    (h : rp.finishAuthentication credential state key = .ok a) :
    a.credId = key.credId ∧ counterAdvances a.counter key.counter = true := by
  simp only [RelyingParty.finishAuthentication, bind_eq_ok, require_eq_ok, beq_iff_eq] at h
  obtain ⟨_, hid, _, _, data, _, _, _, _, _, _, _, _, _, _, _, _, _, _, _, _, hcounter, h⟩ := h
  cases h
  exact ⟨hid, hcounter⟩

/-- **What an update does to the counter**: it becomes the one reported; where nothing changed there
is no counter. -/
lemma update_counter {key : StoredPasskey} {a : Assertion} (hid : a.credId = key.credId)
    (h : counterAdvances a.counter key.counter = true) :
    (key.update a).1.counter = a.counter ∧ ((key.update a).2 = false → a.counter = 0) := by
  rw [counterAdvances_iff] at h
  simp only [StoredPasskey.update, hid, ne_eq, not_true_eq_false, if_false]
  refine ⟨?_, ?_⟩
  · split_ifs <;> omega
  · intro hsame
    simp only [Bool.or_eq_false_iff, decide_eq_false_iff_not] at hsame
    omega

end Ridm.Passkeys
