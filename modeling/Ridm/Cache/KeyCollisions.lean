import Ridm.Cache.Keys
import Ridm.Clients.Model
import Std.Data.String.ToNat
import Std.Data.String.ToInt

/-!
# Which keys collide

A key is read back: its words name the function and hold its arguments (`read`).  Every call but one is
read back as it was made (`read_key`), so no two of them share a key.  The one is `client_by_client_id`: a
`client_id` may have colons in it, and one that is a client's UUID and `:jwks`, or `:assertion:` and
anything, has the key of that client's JWK set, or of an assertion's marker (`jwks_served_as_client`).

`keys_collide_iff` is the exact condition.
-/

namespace Ridm

namespace Uuid128

lemma plain_display (u : Uuid128) : Delimited.plain ':' u.display = true := by
  refine List.all_eq_true.mpr fun c hc => ?_
  rw [display, String.toList_ofList] at hc
  have hchar := isUuidChar_text u c hc
  rw [bne_iff_ne]
  rintro rfl
  revert hchar
  decide

/-- The UUID a word is the text of. -/
def ofDisplay (s : String) : Option Uuid128 := (parseHyphenated s.toList).filter fun u => u.display == s

@[simp] lemma ofDisplay_display (u : Uuid128) : ofDisplay u.display = some u := by
  simp [ofDisplay, display, parseHyphenated_text]

lemma ofDisplay_eq_some {s : String} {u : Uuid128} : ofDisplay s = some u ↔ s = u.display := by
  constructor
  · intro h
    have heq : u.display = s := by simpa using (Option.filter_eq_some_iff.mp h).2
    exact heq.symm
  · rintro rfl
    exact ofDisplay_display u

lemma display_ne_any (u : Uuid128) : u.display ≠ "any" := by
  intro h
  have hlen := congrArg (fun s => s.toList.length) h
  simp [display] at hlen

end Uuid128

namespace Cache.Keys

open Delimited

/-- A call of a key function, less the tenant. -/
inductive Call
  | rolesVersion
  | effectiveRoles (version : String) (userId : Uuid128) (orgId : Option Uuid128)
  | effectiveRolesAnywhere (version : String) (userId : Uuid128)
  | adminPermissions (version : String) (userId : Uuid128) (org : Option String)
  | profileSchema
  | keysVersion
  | jwks (version : String)
  | verificationKeys (version : String)
  | activeSigningKey (alg version : String)
  | user (userId : Uuid128)
  | samlKeys
  | samlSp (clientId : Uuid128)
  | samlSpByEntity (entityId : String)
  | jtiDenied (jti : String)
  | opaqueAccessTokenClaims (tokenHash : String)
  | clientByClientId (clientId : String)
  | scopes
  | webhooks
  | mappersVersion
  | mappers (version : String) (clientId : Uuid128)
  | discovery
  | ssoSession (sessionId : Uuid128)
  | authCode (codeHash : String)
  | loginFlow (flowId : Uuid128)
  | clientJwks (clientId : Uuid128)
  | clientAssertionJti (clientId : Uuid128) (jti : String)
  | codeFamily (codeHash : String)
  | sessionClients (sessionId : Uuid128)
  | logoutFlow (flowId : Uuid128)
  | parRequest (id : String)
  | providerSettings (kind : String)
  | flowOtp (flowId : Uuid128) (channel : String)
  | magicLink (tokenHash : String)
  | otpFactorEnrolment (flowId : Uuid128) (channel : String)
  | otpFactorCooldown (flowId : Uuid128) (channel purpose : String)
  | passwordlessSends (identifier : String)
  | emailVerification (tokenHash : String)
  | passwordReset (tokenHash : String)
  | userSessions (userId : Uuid128)
  | totpEnrolment (flowId : Uuid128)
  | totpUsedStep (credentialId : Uuid128) (step : ℕ)
  | passkeyCeremony (scope : Uuid128) (kind : String)
  | contactChange (userId : Uuid128) (channel : String)
  | contactChangeCode (userId : Uuid128) (channel : String)
  | contactChangeCooldown (userId : Uuid128) (channel : String)
  | brokerState (stateHash : String)
  | brokerLinkTicket (ticketHash : String)
  | impersonationTicket (ticketHash : String)
  | impersonationRestore (sessionId : Uuid128)
  | idpJwks (idpId : Uuid128)
  | identityProviders
  | identityProvidersFull
  | ldapDirectories
  | kerberosRealms
  | kerberosReplay (hash : String)
  | deviceCode (deviceHash : String)
  | cibaRequest (authReqHash : String)
  | deviceUserCode (userCode : String)
  | deviceGuesses (ip : String)
  | patTouched (tokenId : Uuid128)
  | tenantRateLimit (bucket : String)
  | clientOrigins
  | ipRules
  | mtlsTrustAnchors
  | mtlsVerifier
  | resourceServer (identifier : String)
  | resourceServerPermissions (version : String) (rsId : Uuid128) (rolesKey : String)
  | userGroups (version : String) (userId : Uuid128) (effective : Bool)
  | userOrganizations (version : String) (userId : Uuid128)
  | messageTemplates
  | userAccessVersion (userId : Uuid128)
  | organization (orgId : Uuid128)
  | orgAutoJoinDomains
  | tenantStats (days : ℕ)
  | tenantUserCounts
  | tenantUserTotal
  | kerberosKeytab (idpId : Uuid128) (updatedAtMicros : ℤ)

namespace Call

def key (sha256Hex : String → String) (t : Uuid128) : Call → String
  | rolesVersion => Keys.rolesVersion t
  | effectiveRoles version userId orgId => Keys.effectiveRoles t version userId orgId
  | effectiveRolesAnywhere version userId => Keys.effectiveRolesAnywhere t version userId
  | adminPermissions version userId org => Keys.adminPermissions t version userId org
  | profileSchema => Keys.profileSchema t
  | keysVersion => Keys.keysVersion t
  | jwks version => Keys.jwks t version
  | verificationKeys version => Keys.verificationKeys t version
  | activeSigningKey alg version => Keys.activeSigningKey t alg version
  | user userId => Keys.user t userId
  | samlKeys => Keys.samlKeys t
  | samlSp clientId => Keys.samlSp t clientId
  | samlSpByEntity entityId => Keys.samlSpByEntity t sha256Hex entityId
  | jtiDenied jti => Keys.jtiDenied t jti
  | opaqueAccessTokenClaims tokenHash => Keys.opaqueAccessTokenClaims t tokenHash
  | clientByClientId clientId => Keys.clientByClientId t clientId
  | scopes => Keys.scopes t
  | webhooks => Keys.webhooks t
  | mappersVersion => Keys.mappersVersion t
  | mappers version clientId => Keys.mappers t version clientId
  | discovery => Keys.discovery t
  | ssoSession sessionId => Keys.ssoSession t sessionId
  | authCode codeHash => Keys.authCode t codeHash
  | loginFlow flowId => Keys.loginFlow t flowId
  | clientJwks clientId => Keys.clientJwks t clientId
  | clientAssertionJti clientId jti => Keys.clientAssertionJti t clientId jti
  | codeFamily codeHash => Keys.codeFamily t codeHash
  | sessionClients sessionId => Keys.sessionClients t sessionId
  | logoutFlow flowId => Keys.logoutFlow t flowId
  | parRequest id => Keys.parRequest t id
  | providerSettings kind => Keys.providerSettings t kind
  | flowOtp flowId channel => Keys.flowOtp t flowId channel
  | magicLink tokenHash => Keys.magicLink t tokenHash
  | otpFactorEnrolment flowId channel => Keys.otpFactorEnrolment t flowId channel
  | otpFactorCooldown flowId channel purpose => Keys.otpFactorCooldown t flowId channel purpose
  | passwordlessSends identifier => Keys.passwordlessSends t identifier
  | emailVerification tokenHash => Keys.emailVerification t tokenHash
  | passwordReset tokenHash => Keys.passwordReset t tokenHash
  | userSessions userId => Keys.userSessions t userId
  | totpEnrolment flowId => Keys.totpEnrolment t flowId
  | totpUsedStep credentialId step => Keys.totpUsedStep t credentialId step
  | passkeyCeremony scope kind => Keys.passkeyCeremony t scope kind
  | contactChange userId channel => Keys.contactChange t userId channel
  | contactChangeCode userId channel => Keys.contactChangeCode t userId channel
  | contactChangeCooldown userId channel => Keys.contactChangeCooldown t userId channel
  | brokerState stateHash => Keys.brokerState t stateHash
  | brokerLinkTicket ticketHash => Keys.brokerLinkTicket t ticketHash
  | impersonationTicket ticketHash => Keys.impersonationTicket t ticketHash
  | impersonationRestore sessionId => Keys.impersonationRestore t sessionId
  | idpJwks idpId => Keys.idpJwks t idpId
  | identityProviders => Keys.identityProviders t
  | identityProvidersFull => Keys.identityProvidersFull t
  | ldapDirectories => Keys.ldapDirectories t
  | kerberosRealms => Keys.kerberosRealms t
  | kerberosReplay hash => Keys.kerberosReplay t hash
  | deviceCode deviceHash => Keys.deviceCode t deviceHash
  | cibaRequest authReqHash => Keys.cibaRequest t authReqHash
  | deviceUserCode userCode => Keys.deviceUserCode t userCode
  | deviceGuesses ip => Keys.deviceGuesses t ip
  | patTouched tokenId => Keys.patTouched t tokenId
  | tenantRateLimit bucket => Keys.tenantRateLimit t bucket
  | clientOrigins => Keys.clientOrigins t
  | ipRules => Keys.ipRules t
  | mtlsTrustAnchors => Keys.mtlsTrustAnchors t
  | mtlsVerifier => Keys.mtlsVerifier t
  | resourceServer identifier => Keys.resourceServer t identifier
  | resourceServerPermissions version rsId rolesKey =>
      Keys.resourceServerPermissions t version rsId rolesKey
  | userGroups version userId effective => Keys.userGroups t version userId effective
  | userOrganizations version userId => Keys.userOrganizations t version userId
  | messageTemplates => Keys.messageTemplates t
  | userAccessVersion userId => Keys.userAccessVersion t userId
  | organization orgId => Keys.organization t orgId
  | orgAutoJoinDomains => Keys.orgAutoJoinDomains t
  | tenantStats days => Keys.tenantStats t days
  | tenantUserCounts => Keys.tenantUserCounts t
  | tenantUserTotal => Keys.tenantUserTotal t
  | kerberosKeytab idpId updatedAtMicros => Keys.kerberosKeytab t idpId updatedAtMicros

/-- A text of the alphabets of tokens and hashes (hexadecimal digits, Base64 for URLs, an algorithm's or
a channel's name): no colons. -/
def isToken (s : String) : Bool :=
  s.toList.all fun c => c.isAlphanum || c == '-' || c == '_' || c == '.'

/-- The callers pass tokens where more follows, and the hash of a device code. -/
def Valid : Call → Prop
  | effectiveRoles version _ _ | effectiveRolesAnywhere version _ | adminPermissions version _ _
  | mappers version _ | resourceServerPermissions version _ _ | userGroups version _ _
  | userOrganizations version _ => isToken version
  | activeSigningKey alg _ => isToken alg
  | otpFactorEnrolment _ channel | contactChange _ channel | contactChangeCode _ channel
  | contactChangeCooldown _ channel => isToken channel
  | otpFactorCooldown _ channel purpose => isToken channel ∧ isToken purpose
  | deviceCode deviceHash => isToken deviceHash
  | _ => True

end Call

/-! ## Reading a key -/

section

open Call Uuid128

def readRoles : List String → Option Call
  | ["ver"] => some .rolesVersion
  | [version, "user", u] => (ofDisplay u).map fun u => .effectiveRoles version u none
  | [version, "user", u, "org", o] => (ofDisplay u).bind fun u =>
      if o = "any" then some (.effectiveRolesAnywhere version u)
      else (ofDisplay o).map fun o => .effectiveRoles version u (some o)
  | _ => none

def readAdminPermissions : List String → Option Call
  | [version, "user", u] => (ofDisplay u).map fun u => .adminPermissions version u none
  | version :: "user" :: u :: "org" :: org =>
      (ofDisplay u).map fun u => .adminPermissions version u (some (join ':' org))
  | _ => none

def readUser : List String → Option Call
  | [u] => (ofDisplay u).map .user
  | [u, "sessions"] => (ofDisplay u).map .userSessions
  | [u, "access_version"] => (ofDisplay u).map .userAccessVersion
  | [u, "contact", channel, "pending"] => (ofDisplay u).map fun u => .contactChange u channel
  | [u, "contact", channel, "code"] => (ofDisplay u).map fun u => .contactChangeCode u channel
  | [u, "contact", channel, "cooldown"] => (ofDisplay u).map fun u => .contactChangeCooldown u channel
  | _ => none

def readFlow : List String → Option Call
  | [f] => (ofDisplay f).map .loginFlow
  | [f, "mfa", channel, "enrol"] => (ofDisplay f).map fun f => .otpFactorEnrolment f channel
  | [f, "mfa", channel, purpose, "cooldown"] =>
      (ofDisplay f).map fun f => .otpFactorCooldown f channel purpose
  | [f, "totp", "enrol"] => (ofDisplay f).map .totpEnrolment
  | f :: "otp" :: channel => (ofDisplay f).map fun f => .flowOtp f (join ':' channel)
  | f :: "passkey" :: kind => (ofDisplay f).map fun f => .passkeyCeremony f (join ':' kind)
  | _ => none

def readClient : List String → Option Call
  | [c, "jwks"] => some (((ofDisplay c).map .clientJwks).getD (.clientByClientId (join ':' [c, "jwks"])))
  | c :: "assertion" :: w :: jti =>
      some (((ofDisplay c).map fun c => .clientAssertionJti c (join ':' (w :: jti))).getD
        (.clientByClientId (join ':' (c :: "assertion" :: w :: jti))))
  | clientId => some (.clientByClientId (join ':' clientId))

def readSession : List String → Option Call
  | [s] => (ofDisplay s).map .ssoSession
  | [s, "clients"] => (ofDisplay s).map .sessionClients
  | [s, "restore"] => (ofDisplay s).map .impersonationRestore
  | _ => none

def readSaml : List String → Option Call
  | ["keys"] => some .samlKeys
  | ["sp", c] => (ofDisplay c).map .samlSp
  | "entity" :: digest => some (.samlSpByEntity (join ':' digest))
  | _ => none

def readDevice : List String → Option Call
  | [deviceHash] => some (.deviceCode deviceHash)
  | "user" :: w :: userCode => some (.deviceUserCode (join ':' (w :: userCode)))
  | "guesses" :: w :: ip => some (.deviceGuesses (join ':' (w :: ip)))
  | _ => none

def readIdps : List String → Option Call
  | [] => some .identityProviders
  | ["full"] => some .identityProvidersFull
  | ["ldap"] => some .ldapDirectories
  | ["kerberos"] => some .kerberosRealms
  | _ => none

def readKrb : List String → Option Call
  | "replay" :: hash => some (.kerberosReplay (join ':' hash))
  | ["keytab", i, micros] =>
      (ofDisplay i).bind fun i => micros.toInt?.map fun micros => .kerberosKeytab i micros
  | _ => none

def readMappers : List String → Option Call
  | ["ver"] => some .mappersVersion
  | [version, c] => (ofDisplay c).map fun c => .mappers version c
  | _ => none

def readStats : List String → Option Call
  | ["users"] => some .tenantUserCounts
  | [days] => days.toNat?.map .tenantStats
  | _ => none

def readTotp : List String → Option Call
  | [c, "used", n] => (ofDisplay c).bind fun c => n.toNat?.map fun n => .totpUsedStep c n
  | _ => none

def readBroker : List String → Option Call
  | "state" :: l => some (.brokerState (join ':' l))
  | "link" :: l => some (.brokerLinkTicket (join ':' l))
  | _ => none

def readGroups : List String → Option Call
  | [version, "eff", "user", u] => (ofDisplay u).map fun u => .userGroups version u true
  | [version, "direct", "user", u] => (ofDisplay u).map fun u => .userGroups version u false
  | _ => none

def readResourceServerPermissions : List String → Option Call
  | version :: rs :: l => (ofDisplay rs).map fun rs => .resourceServerPermissions version rs (join ':' l)
  | _ => none

def readActiveSigningKey : List String → Option Call
  | alg :: l => some (.activeSigningKey alg (join ':' l))
  | _ => none

def readUserOrganizations : List String → Option Call
  | [version, "user", u] => (ofDisplay u).map fun u => .userOrganizations version u
  | _ => none

/-- One UUID, and after it these words. -/
def readUuid (c : Uuid128 → Call) (after : List String) : List String → Option Call
  | u :: l => if l = after then (ofDisplay u).map c else none
  | [] => none

/-- These words, and nothing else. -/
def readOnly (c : Call) (expected : List String) (l : List String) : Option Call :=
  if l = expected then some c else none

/-- Free text. -/
def readText (c : String → Call) (l : List String) : Option Call := some (c (join ':' l))

/-- What a key names, by the first word after the tenant and the words that follow. -/
def readKind (kind : String) (l : List String) : Option Call :=
  if kind = "roles" then readRoles l
  else if kind = "admin_perms" then readAdminPermissions l
  else if kind = "profile_schema" then readOnly .profileSchema [] l
  else if kind = "keys" then readOnly .keysVersion ["ver"] l
  else if kind = "jwks" then readText .jwks l
  else if kind = "verify_keys" then readText .verificationKeys l
  else if kind = "active_key" then readActiveSigningKey l
  else if kind = "user" then readUser l
  else if kind = "saml" then readSaml l
  else if kind = "jti" then readText .jtiDenied l
  else if kind = "at" then readText .opaqueAccessTokenClaims l
  else if kind = "client" then readClient l
  else if kind = "scopes" then readOnly .scopes [] l
  else if kind = "webhooks" then readOnly .webhooks [] l
  else if kind = "mappers" then readMappers l
  else if kind = "discovery" then readOnly .discovery [] l
  else if kind = "session" then readSession l
  else if kind = "code" then readText .authCode l
  else if kind = "flow" then readFlow l
  else if kind = "code_family" then readText .codeFamily l
  else if kind = "logout" then readUuid .logoutFlow [] l
  else if kind = "par" then readText .parRequest l
  else if kind = "provider" then readText .providerSettings l
  else if kind = "magic" then readText .magicLink l
  else if kind = "pwless" then readText .passwordlessSends (l.drop 1)
  else if kind = "verify" then readText .emailVerification l
  else if kind = "reset" then readText .passwordReset l
  else if kind = "totp" then readTotp l
  else if kind = "broker" then readBroker l
  else if kind = "impersonate" then readText .impersonationTicket l
  else if kind = "idp" then readUuid .idpJwks ["jwks"] l
  else if kind = "idps" then readIdps l
  else if kind = "krb" then readKrb l
  else if kind = "device" then readDevice l
  else if kind = "ciba" then readText .cibaRequest l
  else if kind = "pat" then readUuid .patTouched ["touched"] l
  else if kind = "rl" then readText .tenantRateLimit l
  else if kind = "client_origins" then readOnly .clientOrigins [] l
  else if kind = "ip_rules" then readOnly .ipRules [] l
  else if kind = "mtls_trust_anchors" then readOnly .mtlsTrustAnchors [] l
  else if kind = "mtls_verifier" then readOnly .mtlsVerifier [] l
  else if kind = "rs" then readText .resourceServer l
  else if kind = "rsperms" then readResourceServerPermissions l
  else if kind = "groups" then readGroups l
  else if kind = "orgs" then readUserOrganizations l
  else if kind = "message_templates" then readOnly .messageTemplates [] l
  else if kind = "org" then readUuid .organization [] l
  else if kind = "org_auto_join" then readOnly .orgAutoJoinDomains [] l
  else if kind = "stats" then readStats l
  else if kind = "users" then readOnly .tenantUserTotal ["total"] l
  else none

/-- What a key names: the tenant, the function and its arguments. -/
def read (key : String) : Option (Uuid128 × Call) :=
  match words ':' key with
  | _ :: _ :: t :: kind :: l => (ofDisplay t).bind fun t => (readKind kind l).map fun c => (t, c)
  | _ => none

/-! ## What is read of a key -/

lemma words_display (u : Uuid128) : words ':' u.display = [u.display] := words_of_plain u.plain_display

lemma plain_of_isToken {s : String} (h : isToken s = true) : plain ':' s = true := by
  refine List.all_eq_true.mpr fun c hc => ?_
  have hchar := List.all_eq_true.mp h c hc
  rw [bne_iff_ne]
  rintro rfl
  revert hchar
  decide

lemma words_of_isToken {s : String} (h : isToken s = true) : words ':' s = [s] :=
  words_of_plain (plain_of_isToken h)

lemma words_tenantKey (t : Uuid128) (parts : List String) :
    words ':' (tenantKey t parts) = "ridm" :: "t" :: t.display :: parts.flatMap (words ':') := by
  rw [tenantKey, words_join (List.cons_ne_nil _ _)]
  simp only [List.flatMap_cons, words_display, PREFIX]
  rw [words_of_plain (s := "ridm") (by decide), words_of_plain (s := "t") (by decide)]
  rfl

lemma read_tenantKey (t : Uuid128) {kind : String} (hkind : plain ':' kind = true) (parts : List String) :
    read (tenantKey t (kind :: parts)) =
      (readKind kind (parts.flatMap (words ':'))).map fun c => (t, c) := by
  rw [read, words_tenantKey, List.flatMap_cons, words_of_plain hkind]
  show (ofDisplay t.display).bind _ = _
  rw [ofDisplay_display]
  rfl

/-- A call whose entity id stands for its hash, which is all a key has of it. -/
def Call.hashed (sha256Hex : String → String) : Call → Call
  | .samlSpByEntity entityId => .samlSpByEntity (sha256Hex entityId)
  | c => c

lemma Call.eq_of_hashed_eq {sha256Hex : String → String} {c c' : Call} (h : c.hashed sha256Hex = c')
    (hc' : ∀ entityId, c' ≠ .samlSpByEntity entityId) : c = c' := by
  cases c with
  | samlSpByEntity entityId => exact absurd h.symm (hc' _)
  | _ => exact h

lemma isToken_repr (n : ℕ) : isToken n.repr = true := by
  refine List.all_eq_true.mpr fun c hc => ?_
  rw [Nat.toList_repr] at hc
  have hdigit : c.isDigit = true := Nat.isDigit_of_mem_toDigits (by decide) (by decide) hc
  simp [Char.isAlphanum, hdigit]

lemma isToken_intRepr (z : ℤ) : isToken z.repr = true := by
  cases z with
  | ofNat n => exact isToken_repr n
  | negSucc n =>
      have hdigits : isToken (n + 1).repr = true := isToken_repr (n + 1)
      simpa [Int.repr, isToken] using hdigits

lemma repr_ne_users (n : ℕ) : n.repr ≠ "users" := by
  intro h
  have hdigit : ('u' : Char).isDigit = true :=
    Nat.isDigit_of_mem_toDigits (b := 10) (n := n) (by decide) (by decide) (by
      rw [← Nat.toList_repr, h]
      decide)
  revert hdigit
  decide

/-- **A key is read back** as the call that made it, a client's document apart. -/
lemma read_key (sha256Hex : String → String) (t : Uuid128) {c : Call} (hc : c.Valid)
    (hclient : ∀ clientId, c ≠ .clientByClientId clientId) :
    read (c.key sha256Hex t) = some (t, c.hashed sha256Hex) := by
  cases c with
  | clientByClientId clientId => exact absurd rfl (hclient clientId)
  -- words only
  | rolesVersion | profileSchema | keysVersion | samlKeys | scopes | webhooks | mappersVersion | discovery
  | identityProviders | identityProvidersFull | ldapDirectories | kerberosRealms | clientOrigins | ipRules
  | mtlsTrustAnchors | mtlsVerifier | messageTemplates | orgAutoJoinDomains | tenantUserCounts
  | tenantUserTotal =>
      refine (read_tenantKey t rfl _).trans ?_
      simp (disch := decide) [words_of_plain, readKind, readOnly, readRoles, readSaml, readMappers, readIdps,
        readStats, hashed]
  -- free text, after words
  | jwks | verificationKeys | jtiDenied | opaqueAccessTokenClaims | authCode | codeFamily | parRequest
  | providerSettings | magicLink | emailVerification | passwordReset | impersonationTicket | cibaRequest
  | tenantRateLimit | resourceServer | passwordlessSends | brokerState | brokerLinkTicket | kerberosReplay
  | samlSpByEntity =>
      refine (read_tenantKey t rfl _).trans ?_
      simp (disch := decide) [words_of_plain, readKind, readText, readBroker, readKrb, readSaml, hashed]
  -- one UUID, and words
  | user | samlSp | ssoSession | loginFlow | sessionClients | logoutFlow | userSessions | totpEnrolment
  | impersonationRestore | idpJwks | patTouched | userAccessVersion | organization =>
      refine (read_tenantKey t rfl _).trans ?_
      simp (disch := decide) [words_of_plain, words_display, readKind, readUuid, readUser, readSaml,
        readSession, readFlow, hashed]
  | clientJwks => 
      refine (read_tenantKey t rfl _).trans ?_
      simp (disch := decide) [words_of_plain, words_display, readKind, readClient, hashed]
  | flowOtp | passkeyCeremony  =>
      refine (read_tenantKey t rfl _).trans ?_
      simp (disch := decide) [words_of_plain, words_display, readKind, readFlow, hashed]
  -- a token between the words
  | effectiveRoles version userId orgId =>
      cases orgId with
      | none =>
          refine (read_tenantKey t rfl _).trans ?_
          simp (disch := decide) [words_of_plain, words_display, words_of_isToken hc, readKind, readRoles,
            hashed]
      | some orgId =>
          refine (read_tenantKey t rfl _).trans ?_
          simp (disch := decide) [words_of_plain, words_display, words_of_isToken hc, readKind, readRoles,
            display_ne_any, hashed]
  | adminPermissions version userId org =>
      cases org with
      | none =>
          refine (read_tenantKey t rfl _).trans ?_
          simp (disch := decide) [words_of_plain, words_display, words_of_isToken hc, readKind,
            readAdminPermissions, hashed]
      | some org =>
          refine (read_tenantKey t rfl _).trans ?_
          simp (disch := decide) [words_of_plain, words_display, words_of_isToken hc, readKind,
            readAdminPermissions, hashed]
  | userGroups version userId effective =>
      cases effective with
      | false =>
          refine (read_tenantKey t rfl _).trans ?_
          simp (disch := decide) [words_of_plain, words_display, words_of_isToken hc, readKind, readGroups,
            hashed]
      | true =>
          refine (read_tenantKey t rfl _).trans ?_
          simp (disch := decide) [words_of_plain, words_display, words_of_isToken hc, readKind, readGroups,
            hashed]
  | effectiveRolesAnywhere | activeSigningKey | mappers | resourceServerPermissions | userOrganizations
  | otpFactorEnrolment | contactChange | contactChangeCode | contactChangeCooldown | deviceCode =>
      refine (read_tenantKey t rfl _).trans ?_
      simp (disch := decide) [words_of_plain, words_display, words_of_isToken hc, readKind, readRoles,
        readActiveSigningKey, readMappers, readResourceServerPermissions, readUserOrganizations, readFlow,
        readUser, readDevice, hashed]
  | otpFactorCooldown =>
      refine (read_tenantKey t rfl _).trans ?_
      simp (disch := decide) [words_of_plain, words_display, words_of_isToken hc.1, words_of_isToken hc.2,
        readKind, readFlow, hashed]
  -- free text with a word of its own
  | clientAssertionJti clientId jti =>
      obtain ⟨w, l, hjti⟩ := exists_words (d := ':') jti
      refine (read_tenantKey t rfl _).trans ?_
      simp (disch := decide) [words_of_plain, words_display, hjti, readKind, readClient, hashed]
      rw [← hjti, join_words]
  | deviceUserCode userCode =>
      obtain ⟨w, l, hcode⟩ := exists_words (d := ':') userCode
      refine (read_tenantKey t rfl _).trans ?_
      simp (disch := decide) [words_of_plain, hcode, readKind, readDevice, hashed]
      rw [← hcode, join_words]
  | deviceGuesses ip =>
      obtain ⟨w, l, hip⟩ := exists_words (d := ':') ip
      refine (read_tenantKey t rfl _).trans ?_
      simp (disch := decide) [words_of_plain, hip, readKind, readDevice, hashed]
      rw [← hip, join_words]
  -- numbers
  | totpUsedStep credentialId step =>
      refine (read_tenantKey t rfl _).trans ?_
      simp (disch := decide) [words_of_plain, words_display, words_of_isToken (isToken_repr step),
        Nat.toNat?_repr, readKind, readTotp, hashed]
  | tenantStats days =>
      refine (read_tenantKey t rfl _).trans ?_
      simp [words_of_isToken (isToken_repr days), repr_ne_users, Nat.toNat?_repr, readKind, readStats, hashed]
  | kerberosKeytab idpId updatedAtMicros =>
      refine (read_tenantKey t rfl _).trans ?_
      simp (disch := decide) [words_of_plain, words_display,
        words_of_isToken (isToken_intRepr updatedAtMicros), Int.toInt?_repr, readKind, readKrb, hashed]

/-! ## A client's document -/

lemma read_client (t : Uuid128) (clientId : String) :
    read (Keys.clientByClientId t clientId) = (readClient (words ':' clientId)).map fun c => (t, c) := by
  refine (read_tenantKey t rfl _).trans ?_
  simp [readKind]

lemma readClient_eq_some {l : List String} {c : Call} (h : readClient l = some c)
    (hc : ∀ clientId, c ≠ .clientByClientId clientId) :
    (∃ u, l = [Uuid128.display u, "jwks"] ∧ c = .clientJwks u) ∨
      ∃ u w jti, l = Uuid128.display u :: "assertion" :: w :: jti ∧
        c = .clientAssertionJti u (join ':' (w :: jti)) := by
  revert h
  fun_cases readClient l with
  | case1 s =>
      intro h
      cases hs : ofDisplay s with
      | none =>
          rw [hs] at h
          exact absurd (Option.some.inj h).symm (hc _)
      | some u =>
          rw [hs] at h
          rw [ofDisplay_eq_some.mp hs]
          exact Or.inl ⟨u, rfl, (Option.some.inj h).symm⟩
  | case2 s w jti =>
      intro h
      cases hs : ofDisplay s with
      | none =>
          rw [hs] at h
          exact absurd (Option.some.inj h).symm (hc _)
      | some u =>
          rw [hs] at h
          rw [ofDisplay_eq_some.mp hs]
          exact Or.inr ⟨u, w, jti, rfl, (Option.some.inj h).symm⟩
  | case3 =>
      intro h
      exact absurd (Option.some.inj h).symm (hc _)

lemma clientByClientId_inj {t t' : Uuid128} {a a' : String}
    (h : Keys.clientByClientId t a = Keys.clientByClientId t' a') : t = t' ∧ a = a' := by
  have hwords := congrArg (words ':') h
  simp only [Keys.clientByClientId, words_tenantKey, List.flatMap_cons, List.flatMap_nil, List.append_nil,
    List.cons.injEq, true_and] at hwords
  obtain ⟨ht, hrest⟩ := hwords
  refine ⟨?_, words_inj (List.append_cancel_left hrest)⟩
  rw [← Option.some_inj, ← ofDisplay_display t, ht, ofDisplay_display]

/-- A client's document under the key of another client's JWK set, or of the marker of an assertion: the
`client_id` goes on as that key does. -/
def Mistaken : Call → Call → Prop
  | .clientByClientId clientId, .clientJwks client => clientId = join ':' [client.display, "jwks"]
  | .clientByClientId clientId, .clientAssertionJti client jti =>
      clientId = join ':' [client.display, "assertion", jti]
  | _, _ => False

lemma Mistaken.key_eq (sha256Hex : String → String) (t : Uuid128) {c c' : Call} (h : Mistaken c c') :
    c.key sha256Hex t = c'.key sha256Hex t := by
  apply words_inj (d := ':')
  cases c with
  | clientByClientId clientId =>
      cases c' with
      | clientJwks client =>
          obtain rfl : clientId = _ := h
          simp [key, Keys.clientByClientId, Keys.clientJwks, words_tenantKey, words_join]
      | clientAssertionJti client jti =>
          obtain rfl : clientId = _ := h
          simp [key, Keys.clientByClientId, Keys.clientAssertionJti, words_tenantKey, words_join]
      | _ => exact h.elim
  | _ => exact h.elim

lemma Mistaken.ne {c c' : Call} (h : Mistaken c c') : c ≠ c' := by
  rintro rfl
  cases c <;> exact h

lemma of_client_key_eq {sha256Hex : String → String} {t t' : Uuid128} {clientId : String} {c : Call}
    (hc : c.Valid) (h : (Call.clientByClientId clientId).key sha256Hex t = c.key sha256Hex t') :
    t = t' ∧ (c = .clientByClientId clientId ∨ Mistaken (.clientByClientId clientId) c) := by
  by_cases hclient : ∃ clientId', c = .clientByClientId clientId'
  · obtain ⟨clientId', rfl⟩ := hclient
    obtain ⟨ht, rfl⟩ := clientByClientId_inj h
    exact ⟨ht, Or.inl rfl⟩
  · have hne : ∀ clientId', c ≠ .clientByClientId clientId' := not_exists.mp hclient
    have hread := read_key sha256Hex t' hc hne
    rw [← h, key, read_client] at hread
    obtain ⟨d, hd, hpair⟩ := Option.map_eq_some_iff.mp hread
    obtain ⟨rfl, hdc⟩ := Prod.mk.inj hpair
    have hdne : ∀ clientId', d ≠ .clientByClientId clientId' := by
      rintro clientId' rfl
      exact hne clientId' (eq_of_hashed_eq hdc.symm fun _ h => by cases h)
    refine ⟨rfl, Or.inr ?_⟩
    rcases readClient_eq_some hd hdne with ⟨u, hl, rfl⟩ | ⟨u, w, jti, hl, rfl⟩
    · obtain rfl := eq_of_hashed_eq hdc.symm (fun _ h => by cases h)
      rw [Mistaken, ← hl, join_words]
    · obtain rfl := eq_of_hashed_eq hdc.symm (fun _ h => by cases h)
      have hjoin := join_append_join (d := ':') [u.display, "assertion"] (List.cons_ne_nil w jti)
      rw [Mistaken, ← join_words clientId, hl]
      exact hjoin.symm

lemma eq_of_key_eq {sha256Hex : String → String} {t t' : Uuid128} {c c' : Call} (hc : c.Valid)
    (hc' : c'.Valid) (hsha : ∀ e e', c = .samlSpByEntity e → c' = .samlSpByEntity e' →
      sha256Hex e = sha256Hex e' → e = e')
    (hne : ∀ clientId, c ≠ .clientByClientId clientId)
    (hne' : ∀ clientId, c' ≠ .clientByClientId clientId)
    (h : c.key sha256Hex t = c'.key sha256Hex t') : t = t' ∧ c = c' := by
  have hread := read_key sha256Hex t hc hne
  rw [h, read_key sha256Hex t' hc' hne'] at hread
  obtain ⟨ht, hhashed⟩ := Prod.mk.inj (Option.some.inj hread)
  refine ⟨ht.symm, ?_⟩
  cases c with
  | samlSpByEntity entityId =>
      cases c' with
      | samlSpByEntity entityId' =>
          rw [hsha entityId entityId' rfl rfl (Call.samlSpByEntity.inj hhashed).symm]
      | _ => cases hhashed
  | _ => exact (eq_of_hashed_eq hhashed fun _ h => by cases h).symm

/-- **What collides.**  Two calls of the key functions that have one key are one call of one tenant, unless
one of them is for a client's document and its `client_id` is the UUID of the other's client and what its
key has after it.  The hash of entity ids is assumed to keep the two at hand apart. -/
theorem keys_collide_iff (sha256Hex : String → String) (t t' : Uuid128) {c c' : Call} (hc : c.Valid)
    (hc' : c'.Valid) (hsha : ∀ e e', c = .samlSpByEntity e → c' = .samlSpByEntity e' →
      sha256Hex e = sha256Hex e' → e = e') :
    (c.key sha256Hex t = c'.key sha256Hex t' → t = t' ∧ c = c') ↔
      ¬ (t = t' ∧ (Mistaken c c' ∨ Mistaken c' c)) := by
  constructor
  · rintro hinj ⟨rfl, hmistaken | hmistaken⟩
    · exact hmistaken.ne (hinj (hmistaken.key_eq sha256Hex t)).2
    · exact hmistaken.ne (hinj (hmistaken.key_eq sha256Hex t).symm).2.symm
  · intro hmistaken h
    by_cases hclient : ∃ clientId, c = .clientByClientId clientId
    · obtain ⟨clientId, rfl⟩ := hclient
      obtain ⟨rfl, rfl | hm⟩ := of_client_key_eq hc' h
      · exact ⟨rfl, rfl⟩
      · exact absurd ⟨rfl, Or.inl hm⟩ hmistaken
    · by_cases hclient' : ∃ clientId, c' = .clientByClientId clientId
      · obtain ⟨clientId, rfl⟩ := hclient'
        obtain ⟨rfl, rfl | hm⟩ := of_client_key_eq hc h.symm
        · exact ⟨rfl, rfl⟩
        · exact absurd ⟨rfl, Or.inr hm⟩ hmistaken
      · exact eq_of_key_eq hc hc' hsha (not_exists.mp hclient) (not_exists.mp hclient') h

def entityDigest (entityId : String) : String :=
  if entityId = "https://wiki.example" then
    "24844492e6b05909e738c84dbc4d030e87b79369aa9322c50621d0069edf7ae6"
  else if entityId = "https://chat.example" then
    "7f7b7c3b2281b389ea3e590494092a0bfe515d5c44fa0f85d8d57f22cd68aa8f"
  else ""

/-- Two service providers of one tenant. -/
theorem keys_collide_iff_entities :
    ((Call.samlSpByEntity "https://wiki.example").key entityDigest 1 =
          (Call.samlSpByEntity "https://chat.example").key entityDigest 1 →
        (1 : Uuid128) = 1 ∧
          Call.samlSpByEntity "https://wiki.example" = .samlSpByEntity "https://chat.example") ↔
      ¬ ((1 : Uuid128) = 1 ∧
        (Mistaken (.samlSpByEntity "https://wiki.example") (.samlSpByEntity "https://chat.example") ∨
          Mistaken (.samlSpByEntity "https://chat.example") (.samlSpByEntity "https://wiki.example"))) :=
  keys_collide_iff entityDigest 1 1 trivial trivial (by
    rintro _ _ ⟨⟩ ⟨⟩ h
    revert h
    decide +kernel)

/-- **A client's JWK set has the key of a client's document**, and the marker of an assertion has: both
`client_id`s are valid ones, and they start with the UUID of the client the other keys are of. -/
theorem jwks_served_as_client :
    Clients.isValidClientId "00000000-0000-0000-0000-000000000042:jwks" = true ∧
      (Call.clientByClientId "00000000-0000-0000-0000-000000000042:jwks").key entityDigest 1 =
        (Call.clientJwks 0x42).key entityDigest 1 ∧
      Call.clientByClientId "00000000-0000-0000-0000-000000000042:jwks" ≠ .clientJwks 0x42 ∧
      Clients.isValidClientId "00000000-0000-0000-0000-000000000042:assertion:7f" = true ∧
      (Call.clientByClientId "00000000-0000-0000-0000-000000000042:assertion:7f").key entityDigest 1 =
        (Call.clientAssertionJti 0x42 "7f").key entityDigest 1 ∧
      Call.clientByClientId "00000000-0000-0000-0000-000000000042:assertion:7f" ≠
        .clientAssertionJti 0x42 "7f" := by
  have hjwks : Mistaken (.clientByClientId "00000000-0000-0000-0000-000000000042:jwks")
      (.clientJwks 0x42) := by
    show _ = _
    decide +kernel
  have hassertion : Mistaken (.clientByClientId "00000000-0000-0000-0000-000000000042:assertion:7f")
      (.clientAssertionJti 0x42 "7f") := by
    show _ = _
    decide +kernel
  exact ⟨by decide +kernel, hjwks.key_eq entityDigest 1, hjwks.ne, by decide +kernel,
    hassertion.key_eq entityDigest 1, hassertion.ne⟩

end

end Cache.Keys

end Ridm
