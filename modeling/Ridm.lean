import Ridm.Core.Json
import Ridm.Core.Types
import Ridm.Core.Valkey
import Ridm.DeviceCodes.Model
import Ridm.DeviceCodes.Polling
import Ridm.Lib.Interleaving
import Ridm.Sessions.Model
import Ridm.Sessions.SignOut
import Ridm.Totp.RecoveryCodes
import Ridm.Core.Text
import Ridm.Ciba.Model
import Ridm.Ciba.HandOver
import Ridm.Ciba.Decision
import Ridm.RefreshTokens.Model
import Ridm.Totp.SingleUse
import Ridm.RefreshTokens.Families
import Ridm.RefreshTokens.Reuse
import Ridm.Relocation.Model
import Ridm.Relocation.Moves
import Ridm.Broker.Identity
import Ridm.Broker.Exposure
import Ridm.Core.JsonText
import Ridm.Core.Uuid128
import Ridm.Audit.Canonical
import Ridm.Audit.Chain
import Ridm.Audit.Model
import Ridm.Audit.Verification
import Ridm.Audit.Removal
import Ridm.Audit.Walks
import Ridm.Audit.Writer
import Ridm.Lib.Connectives
import Ridm.Scim.Filter
import Ridm.Scim.Precedence
import Ridm.Users.ProfileSchema
import Ridm.Users.Identifiers
import Ridm.Scim.Users
import Ridm.Scim.Lookup
import Ridm.Scim.Replace
import Ridm.Lib.ExpiringMarks
import Ridm.Totp.Authenticator
import Ridm.Core.Jwt
import Ridm.Oidc.Dpop
import Ridm.Oidc.ClientAssertion
import Ridm.Tokens.Denylist
import Ridm.Saml.Replay
import Ridm.Lib.Paths
import Ridm.Roles.Composites
import Ridm.Lib.Ranking
import Ridm.Sessions.Cap
import Ridm.Users.MailedAddress
import Ridm.Tokens.Access
import Ridm.Oidc.Grants
import Ridm.Oidc.Impersonation
import Ridm.Oidc.CodeReplay
import Ridm.Oidc.Exchange
import Ridm.Oidc.Resources
import Ridm.Oidc.Refusals
import Ridm.Cache.Model
import Ridm.Cache.Invalidation
import Ridm.MasterKey.Model
import Ridm.MasterKey.Steps
import Ridm.MasterKey.Rotation
import Ridm.MasterKey.Versions
import Ridm.Login.Flows
import Ridm.Login.Steps
import Ridm.Login.Runs
import Ridm.Login.Unfinished
import Ridm.Login.RiskStepUp
import Ridm.Login.Evidence
import Ridm.Clients.Model
import Ridm.Clients.Secrets
import Ridm.Clients.SecretRaces
import Ridm.Oidc.Subjects
import Ridm.Tokens.IdToken
import Ridm.Tokens.OwnClaims
import Ridm.Passkeys.Counter
import Ridm.Passwords.Changes
import Ridm.Passwordless.Guesses
import Ridm.Contacts.Model
import Ridm.Contacts.Destinations
import Ridm.Login.Attempts
import Ridm.Login.AttemptBudget
import Ridm.Cache.Keys
import Ridm.Cache.KeyCollisions
import Ridm.Lib.Base64
import Ridm.Lib.FormUrlencoded
import Ridm.Saml.Signer
import Ridm.Saml.Redirect
import Ridm.Lib.IpAddress
import Ridm.Net.ClientIp
import Ridm.Kerberos.Der
import Ridm.Kerberos.Acceptor
import Ridm.Kerberos.Replay
import Ridm.Keys.Model
import Ridm.Keys.Revocations
import Ridm.Keys.Lifetimes
import Ridm.Oidc.ImpersonationEnd
import Ridm.Roles.AdminCalls
import Ridm.Roles.Holdings
import Ridm.Roles.Escalation
import Ridm.Lib.Keyset
import Ridm.Paging.Cursor
import Ridm.Paging.Lists
import Ridm.Lib.Forest
import Ridm.Lib.PrefixCode
import Ridm.Lib.SortedMap
import Ridm.Saml.C14n
import Ridm.Saml.C14nText
import Ridm.Saml.SignedTree
import Ridm.Saml.Likeness
import Ridm.Saml.SignedContent
import Ridm.Roles.GroupTree
import Ridm.Roles.GrantExpansion
import Ridm.Roles.OrgMembership
import Ridm.Users.Invitations
import Ridm.Passwords.ResetLink
import Ridm.Audit.Export
import Ridm.Webhooks.Prompt
import Ridm.Ldap.DisableFlag
import Ridm.Ldap.Model
import Ridm.Ldap.SyncCursor
import Ridm.Scim.Literals
import Ridm.Scim.Printing
import Ridm.Scim.ValuePath
import Ridm.Scim.Groups
import Ridm.Scim.Patch
import Ridm.Scim.PatchMembers
import Ridm.Lib.Transaction
import Ridm.RefreshTokens.Outcome
import Ridm.Sessions.Activity
import Ridm.Messages.Model
import Ridm.Messages.Delivery
import Ridm.Contacts.Verified
import Ridm.Net.IpRules
import Ridm.RateLimits.Decision
import Ridm.Lib.BigEndian
import Ridm.Lib.FrontReader
import Ridm.Webauthn.Cbor
import Ridm.Webauthn.AuthData
import Ridm.Cache.Tickets
import Ridm.Kerberos.Spnego
import Ridm.Cache.SingleFlight
import Ridm.Passwords.History
import Ridm.Kerberos.PrincipalText
import Ridm.Lib.Checked
import Ridm.Kerberos.Keytab
import Ridm.Kerberos.Aes
import Ridm.Lib.Regroup
import Ridm.Totp.Base32
import Ridm.Kerberos.NFold
import Ridm.Ldap.Subjects
import Ridm.Tokens.Personal
import Ridm.Users.AttributeRules
import Ridm.Ldap.WriteBack
import Ridm.Ldap.GroupSync
import Ridm.Users.BulkImport
import Ridm.Users.ImportRuns
import Ridm.Cache.Routing
import Ridm.Core.KeyCommands
import Ridm.Jobs.Leader
import Ridm.RateLimits.Counting
import Ridm.RateLimits.Windows
import Ridm.Verifier.JwksCache
