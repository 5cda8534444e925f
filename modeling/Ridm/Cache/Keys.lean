import Ridm.Core.Uuid128
import Ridm.Lib.Delimited

/-!
# Cache keys

The tenant-scoped key functions of `api/src/cache/keys.rs`, in its order.  Each joins words and its
arguments by colons, after the prefix and the tenant (`tenantKey`).

An argument that is a text is what the callers pass: a version token, an algorithm, the hash of a secret, a
channel; or free text, and that is always the last one.  The entity id of a SAML service provider is hashed
first (`Sha256`, in hexadecimal digits), and what it is hashed with is a parameter.
-/

namespace Ridm

/-- `Display` of a UUID. -/
def Uuid128.display (u : Uuid128) : String := String.ofList u.text

namespace Cache.Keys

open Delimited (join)

def PREFIX : String := "ridm"

/-- A key of a tenant: `{PREFIX}:t:{tenant_id}:` and what follows. -/
def tenantKey (tenantId : Uuid128) (parts : List String) : String :=
  join ':' (PREFIX :: "t" :: tenantId.display :: parts)

section

variable (tenantId : Uuid128)

def rolesVersion : String := tenantKey tenantId ["roles", "ver"]

def effectiveRoles (version : String) (userId : Uuid128) (orgId : Option Uuid128) : String :=
  match orgId with
  | some org => tenantKey tenantId ["roles", version, "user", userId.display, "org", org.display]
  | none => tenantKey tenantId ["roles", version, "user", userId.display]

def effectiveRolesAnywhere (version : String) (userId : Uuid128) : String :=
  tenantKey tenantId ["roles", version, "user", userId.display, "org", "any"]

def adminPermissions (version : String) (userId : Uuid128) (org : Option String) : String :=
  match org with
  | some org => tenantKey tenantId ["admin_perms", version, "user", userId.display, "org", org]
  | none => tenantKey tenantId ["admin_perms", version, "user", userId.display]

def profileSchema : String := tenantKey tenantId ["profile_schema"]

def keysVersion : String := tenantKey tenantId ["keys", "ver"]

def jwks (version : String) : String := tenantKey tenantId ["jwks", version]

def verificationKeys (version : String) : String := tenantKey tenantId ["verify_keys", version]

def activeSigningKey (alg version : String) : String := tenantKey tenantId ["active_key", alg, version]

def user (userId : Uuid128) : String := tenantKey tenantId ["user", userId.display]

def samlKeys : String := tenantKey tenantId ["saml", "keys"]

def samlSp (clientId : Uuid128) : String := tenantKey tenantId ["saml", "sp", clientId.display]

def samlSpByEntity (sha256Hex : String → String) (entityId : String) : String :=
  tenantKey tenantId ["saml", "entity", sha256Hex entityId]

def jtiDenied (jti : String) : String := tenantKey tenantId ["jti", jti]

def opaqueAccessTokenClaims (tokenHash : String) : String := tenantKey tenantId ["at", tokenHash]

def clientByClientId (clientId : String) : String := tenantKey tenantId ["client", clientId]

def scopes : String := tenantKey tenantId ["scopes"]

def webhooks : String := tenantKey tenantId ["webhooks"]

def mappersVersion : String := tenantKey tenantId ["mappers", "ver"]

def mappers (version : String) (clientId : Uuid128) : String :=
  tenantKey tenantId ["mappers", version, clientId.display]

def discovery : String := tenantKey tenantId ["discovery"]

def ssoSession (sessionId : Uuid128) : String := tenantKey tenantId ["session", sessionId.display]

def authCode (codeHash : String) : String := tenantKey tenantId ["code", codeHash]

def loginFlow (flowId : Uuid128) : String := tenantKey tenantId ["flow", flowId.display]

def clientJwks (clientId : Uuid128) : String := tenantKey tenantId ["client", clientId.display, "jwks"]

def clientAssertionJti (clientId : Uuid128) (jti : String) : String :=
  tenantKey tenantId ["client", clientId.display, "assertion", jti]

def codeFamily (codeHash : String) : String := tenantKey tenantId ["code_family", codeHash]

def sessionClients (sessionId : Uuid128) : String :=
  tenantKey tenantId ["session", sessionId.display, "clients"]

def logoutFlow (flowId : Uuid128) : String := tenantKey tenantId ["logout", flowId.display]

def parRequest (id : String) : String := tenantKey tenantId ["par", id]

def providerSettings (kind : String) : String := tenantKey tenantId ["provider", kind]

def flowOtp (flowId : Uuid128) (channel : String) : String :=
  tenantKey tenantId ["flow", flowId.display, "otp", channel]

def magicLink (tokenHash : String) : String := tenantKey tenantId ["magic", tokenHash]

def otpFactorEnrolment (flowId : Uuid128) (channel : String) : String :=
  tenantKey tenantId ["flow", flowId.display, "mfa", channel, "enrol"]

def otpFactorCooldown (flowId : Uuid128) (channel purpose : String) : String :=
  tenantKey tenantId ["flow", flowId.display, "mfa", channel, purpose, "cooldown"]

def passwordlessSends (identifier : String) : String :=
  tenantKey tenantId ["pwless", "sends", identifier]

def emailVerification (tokenHash : String) : String := tenantKey tenantId ["verify", tokenHash]

def passwordReset (tokenHash : String) : String := tenantKey tenantId ["reset", tokenHash]

def userSessions (userId : Uuid128) : String := tenantKey tenantId ["user", userId.display, "sessions"]

def totpEnrolment (flowId : Uuid128) : String :=
  tenantKey tenantId ["flow", flowId.display, "totp", "enrol"]

def totpUsedStep (credentialId : Uuid128) (step : ℕ) : String :=
  tenantKey tenantId ["totp", credentialId.display, "used", step.repr]

def passkeyCeremony (scope : Uuid128) (kind : String) : String :=
  tenantKey tenantId ["flow", scope.display, "passkey", kind]

def contactChange (userId : Uuid128) (channel : String) : String :=
  tenantKey tenantId ["user", userId.display, "contact", channel, "pending"]

def contactChangeCode (userId : Uuid128) (channel : String) : String :=
  tenantKey tenantId ["user", userId.display, "contact", channel, "code"]

def contactChangeCooldown (userId : Uuid128) (channel : String) : String :=
  tenantKey tenantId ["user", userId.display, "contact", channel, "cooldown"]

def brokerState (stateHash : String) : String := tenantKey tenantId ["broker", "state", stateHash]

def brokerLinkTicket (ticketHash : String) : String :=
  tenantKey tenantId ["broker", "link", ticketHash]

def impersonationTicket (ticketHash : String) : String :=
  tenantKey tenantId ["impersonate", ticketHash]

def impersonationRestore (sessionId : Uuid128) : String :=
  tenantKey tenantId ["session", sessionId.display, "restore"]

def idpJwks (idpId : Uuid128) : String := tenantKey tenantId ["idp", idpId.display, "jwks"]

def identityProviders : String := tenantKey tenantId ["idps"]

def identityProvidersFull : String := tenantKey tenantId ["idps", "full"]

def ldapDirectories : String := tenantKey tenantId ["idps", "ldap"]

def kerberosRealms : String := tenantKey tenantId ["idps", "kerberos"]

def kerberosReplay (hash : String) : String := tenantKey tenantId ["krb", "replay", hash]

def deviceCode (deviceHash : String) : String := tenantKey tenantId ["device", deviceHash]

def cibaRequest (authReqHash : String) : String := tenantKey tenantId ["ciba", authReqHash]

def deviceUserCode (userCode : String) : String := tenantKey tenantId ["device", "user", userCode]

def deviceGuesses (ip : String) : String := tenantKey tenantId ["device", "guesses", ip]

def patTouched (tokenId : Uuid128) : String := tenantKey tenantId ["pat", tokenId.display, "touched"]

def tenantRateLimit (bucket : String) : String := tenantKey tenantId ["rl", bucket]

def clientOrigins : String := tenantKey tenantId ["client_origins"]

def ipRules : String := tenantKey tenantId ["ip_rules"]

def mtlsTrustAnchors : String := tenantKey tenantId ["mtls_trust_anchors"]

def mtlsVerifier : String := tenantKey tenantId ["mtls_verifier"]

def resourceServer (identifier : String) : String := tenantKey tenantId ["rs", identifier]

def resourceServerPermissions (version : String) (rsId : Uuid128) (rolesKey : String) : String :=
  tenantKey tenantId ["rsperms", version, rsId.display, rolesKey]

def userGroups (version : String) (userId : Uuid128) (effective : Bool) : String :=
  let kind := if effective then "eff" else "direct"
  tenantKey tenantId ["groups", version, kind, "user", userId.display]

def userOrganizations (version : String) (userId : Uuid128) : String :=
  tenantKey tenantId ["orgs", version, "user", userId.display]

def messageTemplates : String := tenantKey tenantId ["message_templates"]

def userAccessVersion (userId : Uuid128) : String :=
  tenantKey tenantId ["user", userId.display, "access_version"]

def organization (orgId : Uuid128) : String := tenantKey tenantId ["org", orgId.display]

def orgAutoJoinDomains : String := tenantKey tenantId ["org_auto_join"]

def tenantStats (days : ℕ) : String := tenantKey tenantId ["stats", days.repr]

def tenantUserCounts : String := tenantKey tenantId ["stats", "users"]

def tenantUserTotal : String := tenantKey tenantId ["users", "total"]

def kerberosKeytab (idpId : Uuid128) (updatedAtMicros : ℤ) : String :=
  tenantKey tenantId ["krb", "keytab", idpId.display, updatedAtMicros.repr]

end

end Cache.Keys

end Ridm
