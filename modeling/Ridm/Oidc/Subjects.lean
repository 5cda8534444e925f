import Ridm.Clients.Model
import Ridm.Oidc.Exchange

/-!
# Users and clients share a claim

`sub` of an access token is a user's id, or the `client_id` of the client when there is no user.
`subject_user_id` tells the two apart by their text alone: what reads as a UUID is a user.  But
`is_valid_client_id` admits the text of a UUID, so an administrator, or whoever else may choose a
client's id, can make a client whose own tokens are those of a user (`client_acts_as_user`).

`subject_of_token` says when that is not so.  A `client_id` drawn by `random_client_id` is never the
text of a UUID (`drawn_client_id_not_uuid`).
-/

namespace Ridm.TokenEndpoint

open Clients (isValidClientId resolveClientId)
open Tokens (TokenService AccessTokenRequest IssuedToken issueAccessToken)

variable {S : TokenService} {req : AccessTokenRequest} {jti : Uuid} {now : Instant} {t : IssuedToken}

lemma tells_of_issued (h : issueAccessToken S req jti now = .ok t) :
    Tokens.Tells S req jti t.expiresAt t.claims := by
  rw [(Tokens.issueAccessToken_ok h).1]
  exact Tokens.tells_accessClaims S req jti now t.expiresAt

lemma parseStr_subjectFor {client : Tokens.TokenClient} (h : client.subjectType = .publicSubject)
    (user : Users.User) : Uuid128.parseStr (Tokens.subjectFor S client user) = some user.id := by
  rw [Tokens.subjectFor, h]
  simp only [Tokens.uuidText, BitVec.ofNat_toNat, BitVec.setWidth_eq]
  exact Uuid128.parseStr_text user.id

/-- **Whose token it is.**  A token issued without a user is nobody's exactly when the client's id does
not read as a UUID and the session it names, if any, is not live.  A token issued for a user under a
public subject is that user's. -/
theorem subject_of_token (hissued : issueAccessToken S req jti now = .ok t)
    (hsid : ∀ sid ∈ req.sessionId, sid < 2 ^ 128) (B : Backend) :
    (req.user = none → (subjectUserId B t.claims = none ↔
      Uuid128.parseStr req.client.clientId = none ∧
        ∀ sid, req.sessionId = some sid → B.sessionUser sid = none)) ∧
    ∀ user, req.user = some user → req.client.subjectType = .publicSubject →
      subjectUserId B t.claims = some user.id.toNat := by
  have htells := tells_of_issued hissued
  rw [subjectUserId, uuidClaim_sid htells hsid, uuidClaim_sub htells]
  refine ⟨?_, ?_⟩
  · intro huser
    rw [huser, Option.or_eq_none_iff, Option.map_eq_none_iff, Option.elim_none, Option.bind_eq_none_iff]
  · intro user huser hpublic
    rw [huser, Option.elim_some, parseStr_subjectFor hpublic, Option.map_some, Option.some_or]

/-! ## Which client ids read as a UUID -/

/-- **A drawn id is no UUID**: `random_client_id` makes texts of 16 characters. -/
theorem drawn_client_id_not_uuid {C : Clients.Backend} {input : Clients.NewClient}
    {drawn : Clients.Draws} {client : Clients.Client}
    (hresolve : Clients.resolve C input now drawn = .ok client)
    (hgiven : (input.clientId.map trim).filter (· ≠ "") = none)
    (hdrawn : drawn.clientId.toList.length = 16) : Uuid128.parseStr client.clientId = none := by
  obtain ⟨clientId, clientType, method, hmetadata, rfl⟩ := Clients.resolve_eq_ok.mp hresolve
  simp only [Clients.resolveMetadata, bind_eq_ok] at hmetadata
  obtain ⟨_, _, _, _, id, hid, _, _, hmetadata⟩ := hmetadata
  cases hmetadata
  rw [resolveClientId, hgiven] at hid
  cases hid
  simp [Uuid128.parseStr, hdrawn]

lemma isClientIdChar_of_isUuidChar {c : Char} (h : isUuidChar c = true) :
    Clients.isClientIdChar c = true := by
  have hlt : c.toNat < 128 := Nat.lt_of_le_of_lt (isUuidChar_toNat h) (by decide)
  have hall : ∀ n < 128, isUuidChar (Char.ofNat n) = true → Clients.isClientIdChar (Char.ofNat n) = true := by
    decide
  have hc := hall c.toNat hlt
  rw [Char.ofNat_toNat] at hc
  exact hc h

/-- **The id of every user is a valid `client_id`.** -/
theorem isValidClientId_uuidText (u : Uuid) : isValidClientId (Tokens.uuidText u) = true := by
  have hchars := Uuid128.isUuidChar_text (BitVec.ofNat 128 u)
  have hascii : ∀ c ∈ Uuid128.text (BitVec.ofNat 128 u), c.toNat < 128 := fun c hc =>
    Nat.lt_of_le_of_lt (isUuidChar_toNat (hchars c hc)) (by decide)
  rw [isValidClientId, Bool.and_eq_true, Bool.and_eq_true, Tokens.uuidText, String.toList_ofList]
  refine ⟨⟨?_, ?_⟩, ?_⟩
  · rw [decide_eq_true_eq, utf8ByteSize_ofList_of_ascii hascii, Uuid128.length_text]
    decide
  · -- it begins with a digit
    obtain ⟨d, hd, hhead⟩ := Uuid128.head_text (BitVec.ofNat 128 u)
    rw [hhead, Option.any_some]
    have hall : ∀ d < 16, isAsciiAlphanumeric (hexDigit d) = true := by decide
    exact hall d hd
  · exact List.all_eq_true.mpr fun c hc => isClientIdChar_of_isUuidChar (hchars c hc)

/-! ## A client with a user's id -/

def namedAfterUser : Clients.NewClient where
  clientId := some "00000000-0000-0000-0000-000000000007"
  name := "Nightly export"
  clientType := some .machine
  tokenEndpointAuthMethod := none
  metadata := ""

def ownToken (clientId : String) (user : Option Users.User) : AccessTokenRequest :=
  { heldRequest .publicSubject with
    client := { (heldRequest .publicSubject).client with clientId := clientId }
    user := user
    sessionId := none }

def ada : Users.User := { id := 7, username := "ada", createdAt := 0, updatedAt := 0 }

def tenantWithUser : Backend := plainBackend (fun _ => .ok "own") fun _ => []

/-- **A client acts as a user.**  Its id is let through, and its own token, issued without a user, is
taken for one of the user 7. -/
theorem client_acts_as_user :
    ∃ client, Clients.resolve Clients.lenient namedAfterUser 0 ⟨1, "", 10, "cs_first"⟩ = .ok client ∧
      isValidClientId client.clientId = true ∧
      ∃ t, issueAccessToken tenantWithUser.service (ownToken client.clientId none) 32 (seconds 100) =
          .ok t ∧
        subjectUserId tenantWithUser t.claims = some 7 ∧
        ∃ subject, loadSubjectOf tenantWithUser (some 7) none = .ok (some subject) ∧
          subject.user.username = "ada" := by
  refine ⟨_, rfl, by decide +kernel, ⟨_, rfl, ?_, ⟨_, rfl, rfl⟩⟩⟩
  decide +kernel

/-- The token of a client with another id is nobody's, and a user's token is the user's. -/
theorem subject_of_token_own :
    (∃ t, issueAccessToken tenantWithUser.service (ownToken "nightly-export" none) 32 (seconds 100) =
        .ok t ∧ subjectUserId tenantWithUser t.claims = none) ∧
    ∃ t, issueAccessToken tenantWithUser.service (ownToken "nightly-export" (some ada)) 32
        (seconds 100) = .ok t ∧
      subjectUserId tenantWithUser t.claims = some 7 := by
  have hnobody : ∀ sid ∈ (none : Option Uuid), sid < 2 ^ 128 := nofun
  constructor
  · obtain ⟨t, ht⟩ : ∃ t, issueAccessToken tenantWithUser.service (ownToken "nightly-export" none) 32
        (seconds 100) = .ok t := ⟨_, rfl⟩
    refine ⟨t, ht, ((subject_of_token ht hnobody tenantWithUser).1 rfl).mpr ⟨?_, nofun⟩⟩
    decide +kernel
  · obtain ⟨t, ht⟩ : ∃ t, issueAccessToken tenantWithUser.service
        (ownToken "nightly-export" (some ada)) 32 (seconds 100) = .ok t := ⟨_, rfl⟩
    exact ⟨t, ht, (subject_of_token ht hnobody tenantWithUser).2 ada rfl rfl⟩

end Ridm.TokenEndpoint
