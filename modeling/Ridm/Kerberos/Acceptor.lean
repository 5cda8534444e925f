import Ridm.Core.Text
import Ridm.Kerberos.Der

/-!
# Accepting a Kerberos AP-REQ

`Acceptor::accept` of `api/src/kerberos/acceptor.rs`: the ticket must be for the service and decrypt under
one of its keys, be valid now and come from an accepted realm, and its authenticator must decrypt under the
ticket's session key, name the same client and be fresh.  The AES profiles and SHA-256 are parameters.

The function is cut where the clock comes in.  What is read of a request (`readRequest`), of its ticket
(`openTicket`) and of its authenticator (`openAuthenticator`) does not depend on the time, so every call
that accepts a request compares its clock with one and the same client time (`accept_eq_ok`).
-/

namespace Ridm.Kerberos

def USAGE_TICKET : ℤ := 2

def USAGE_AUTHENTICATOR : ℤ := 11

def CKSUM_GSSAPI : ℤ := 0x8003

/-- `GSS_C_MUTUAL_FLAG`, bit 1. -/
def mutualFlag (flags : UInt8) : Bool := flags &&& 2 != 0

/-- A principal and its realm. -/
structure Principal where
  components : List String
  realm : String
  deriving DecidableEq

namespace Principal

/-- `Principal::eq_ignore_case`. -/
def eqIgnoreCase (p q : Principal) : Bool :=
  eqIgnoreAsciiCase p.realm q.realm && p.components.length == q.components.length &&
    (p.components.zip q.components).all fun c => eqIgnoreAsciiCase c.1 c.2

def escape (s : String) : String :=
  String.join (s.toList.map fun c =>
    if c = '/' ∨ c = '@' ∨ c = '\\' then "\\" ++ String.singleton c else String.singleton c)

/-- `Principal`'s `Display`. -/
def text (p : Principal) : String :=
  String.intercalate "/" (p.components.map escape) ++ "@" ++ escape p.realm

end Principal

/-- One key of a keytab. -/
structure KeytabEntry where
  principal : Principal
  kvno : ℕ
  etype : ℤ
  key : List UInt8
  deriving DecidableEq

def etypeKeyLen (etype : ℤ) : Option ℕ :=
  if etype = 17 ∨ etype = 19 then some 16
  else if etype = 18 ∨ etype = 20 then some 32
  else none

def etypeName (etype : ℤ) : String :=
  match etype with
  | 1 => "des-cbc-crc"
  | 3 => "des-cbc-md5"
  | 16 => "des3-cbc-sha1"
  | 17 => "aes128-cts-hmac-sha1-96"
  | 18 => "aes256-cts-hmac-sha1-96"
  | 19 => "aes128-cts-hmac-sha256-128"
  | 20 => "aes256-cts-hmac-sha384-192"
  | 23 => "rc4-hmac"
  | 24 => "rc4-hmac-exp"
  | 25 => "camellia128-cts-cmac"
  | 26 => "camellia256-cts-cmac"
  | other => "etype " ++ toString other

def etypeSupported (etype : ℤ) : Bool := (etypeKeyLen etype).isSome

/-- Why a decryption failed. -/
inductive CryptoError
  | unavailable
  | etype (etype : ℤ)
  | integrity

/-- Why a ticket is refused. -/
inductive AcceptError
  | malformed (e : DerError)
  | version
  | userToUser
  | wrongService (name : String)
  | noKey (etype : String) (kvno : Option ℤ)
  | ticket (e : CryptoError)
  | authenticator (e : CryptoError)
  | notYetValid
  | expired
  | invalid
  | realm (realm : String)
  | clientMismatch
  | skew

/-- `Key`: a session key. -/
structure Key where
  etype : ℤ
  value : List UInt8

/-- A ciphertext and the key it names. -/
structure EncryptedData where
  etype : ℤ
  kvno : Option ℤ
  cipher : List UInt8

/-- What is not read here. -/
structure Platform where
  /-- `crypto::decrypt`: encryption type, key, usage and data. -/
  decrypt : ℤ → List UInt8 → ℤ → List UInt8 → Except CryptoError (List UInt8)
  apRep : Key → List UInt8 → ℤ → Except CryptoError (List UInt8)
  /-- `Sha256::digest`, in hexadecimal. -/
  hexSha256 : List UInt8 → String

/-- `Acceptor`, less the time. -/
structure Acceptor where
  keys : List KeytabEntry
  service : Principal
  realms : List String
  maxSkew : ℤ

/-- What an accepted ticket says. -/
structure Accepted where
  client : Principal
  authTime : Instant
  endTime : Instant
  replayKey : String
  apRep : Option (List UInt8)

/-! ## What does not depend on the time -/

/-- `AcceptError::from`, as `?` applies it. -/
def orMalformed {α : Type} (r : Except DerError α) : Except AcceptError α := r.mapError .malformed

/-- A reader over a whole byte string; what is left is not looked at. -/
def reading {α : Type} (content : List UInt8) (r : Reader α) : Except DerError α := r.run' content

/-- `i32::try_from`. -/
def asI32 (what : String) (n : ℤ) : Except DerError ℤ := do
  require ⟨what⟩ (decide (-2147483648 ≤ n ∧ n ≤ 2147483647))
  .ok n

def encryptedData (content : List UInt8) : Except DerError EncryptedData :=
  reading content do
    let etype ← liftM (int (← explicit 0 INTEGER))
    let kvno ← match ← explicitOpt 1 INTEGER with
      | some c => some <$> liftM (int c)
      | none => pure none
    let cipher ← explicit 2 OCTET_STRING
    let etype ← liftM (asI32 "etype out of range" etype)
    return ⟨etype, kvno, cipher⟩

def components : ℕ → List UInt8 → List String → Except DerError (List String)
  | 0, _, found => .ok found
  | fuel + 1, names, found =>
      if names.isEmpty then .ok found
      else do
        require ⟨"too many name components"⟩ (found.length != 8)
        let (content, rest) ← expect GENERAL_STRING names
        let c ← string content
        require ⟨"empty name component"⟩ (c != "")
        components fuel rest (found ++ [c])

def principal (content : List UInt8) (realm : String) : Except DerError Principal :=
  reading content do
    let _ ← explicit 0 INTEGER
    let names ← explicit 1 SEQUENCE
    -- every component takes at least two bytes, so the length is fuel enough
    let found ← liftM (components (names.length + 1) names [])
    liftM (require (DerError.mk "empty principal name") (!found.isEmpty && realm != ""))
    return ⟨found, realm⟩

def encryptionKey (content : List UInt8) : Except DerError Key :=
  reading content do
    let etype ← liftM (int (← explicit 0 INTEGER))
    let value ← explicit 1 OCTET_STRING
    let etype ← liftM (asI32 "key type out of range" etype)
    return ⟨etype, value⟩

/-- Of an AP-REQ: its version, its options, its ticket and its authenticator. -/
structure ApReq where
  mutualRequired : Bool
  ticket : List UInt8
  authenticator : EncryptedData

/-- The request, up to its ticket. -/
def readRequest (apReq : List UInt8) : Except AcceptError ApReq := do
  let outer ← orMalformed (do single (← single apReq (app 14)) SEQUENCE)
  let (pvno, r) ← orMalformed ((explicit 0 INTEGER).run outer)
  let pvno ← orMalformed (int pvno)
  -- the second number is looked at only when the first is right
  require .version (pvno == 5)
  let (msgType, r) ← orMalformed ((explicit 1 INTEGER).run r)
  let msgType ← orMalformed (int msgType)
  require .version (msgType == 14)
  let (options, r) ← orMalformed ((explicit 2 BIT_STRING).run r)
  require .userToUser (!bit options 1)
  let (wrapped, r) ← orMalformed ((expect (ctx 3)).run r)
  let ticket ← orMalformed (single wrapped (app 1))
  let (authenticator, _) ← orMalformed ((explicit 4 SEQUENCE).run r)
  let authenticator ← orMalformed (encryptedData authenticator)
  .ok ⟨bit options 2, ticket, authenticator⟩

/-- `EncTicketPart`. -/
structure Ticket where
  flags : List UInt8
  session : Key
  client : Principal
  authTime : Instant
  startTime : Option Instant
  endTime : Instant

/-- `Authenticator`, with the raw text of its time. -/
structure Authenticator where
  gssFlags : UInt8
  cusec : ℤ
  ctimeRaw : List UInt8
  ctime : Instant

section Open

variable (P : Platform) (A : Acceptor)

/-- The ticket's text under the first key that opens it; the last key's error otherwise. -/
def decryptTicket (enc : EncryptedData) (candidates : List KeytabEntry) : Except CryptoError (List UInt8) :=
  candidates.foldl (fun plain k => match plain with
    | .ok plain => .ok plain
    | .error _ => P.decrypt enc.etype k.key USAGE_TICKET enc.cipher) (.error .integrity)

/-- The ticket, for this service. -/
def openTicket (ticket : List UInt8) : Except AcceptError Ticket := do
  let t ← orMalformed (single ticket SEQUENCE)
  let (vno, t) ← orMalformed ((explicit 0 INTEGER).run t)
  let vno ← orMalformed (int vno)
  require .version (vno == 5)
  let (srealm, t) ← orMalformed ((explicit 1 GENERAL_STRING).run t)
  let srealm ← orMalformed (string srealm)
  let (sname, t) ← orMalformed ((explicit 2 SEQUENCE).run t)
  let sname ← orMalformed (principal sname srealm)
  require (.wrongService sname.text) (sname.eqIgnoreCase A.service)
  let (enc, _) ← orMalformed ((explicit 3 SEQUENCE).run t)
  let enc ← orMalformed (encryptedData enc)
  let candidates := A.keys.filter fun k =>
    k.etype == enc.etype && k.principal.eqIgnoreCase A.service && enc.kvno.all (· == (k.kvno : ℤ))
  require (.noKey (etypeName enc.etype) enc.kvno) (!candidates.isEmpty && etypeSupported enc.etype)
  let plain ← (decryptTicket P enc candidates).mapError .ticket
  let part ← orMalformed (do single (← single plain (app 3)) SEQUENCE)
  orMalformed (reading part do
    let flags ← explicit 0 BIT_STRING
    let session ← liftM (encryptionKey (← explicit 1 SEQUENCE))
    let crealm ← liftM (string (← explicit 2 GENERAL_STRING))
    let client ← liftM (principal (← explicit 3 SEQUENCE) crealm)
    let _ ← expect (ctx 4)
    let authTime ← liftM (time (← explicit 5 GENERALIZED_TIME))
    let startTime ← match ← explicitOpt 6 GENERALIZED_TIME with
      | some c => some <$> liftM (time c)
      | none => pure none
    let endTime ← liftM (time (← explicit 7 GENERALIZED_TIME))
    return ⟨flags, session, client, authTime, startTime, endTime⟩)

/-- The GSS-API flags of an authenticator's checksum, of which the lowest byte is looked at. -/
def gssFlags (cksum : List UInt8) : Except DerError UInt8 := do
  let (kind, c) ← (explicit 0 INTEGER).run cksum
  let kind ← int kind
  let (value, _) ← (explicit 1 OCTET_STRING).run c
  if kind = CKSUM_GSSAPI then do
    require ⟨"malformed GSS-API checksum"⟩ (decide (24 ≤ value.length) && value.take 4 == [16, 0, 0, 0])
    .ok ((value[20]?).getD 0)
  else .ok 0

/-- The authenticator, under the session key. -/
def openAuthenticator (t : Ticket) (enc : EncryptedData) : Except AcceptError Authenticator := do
  require (.authenticator (.etype enc.etype))
    (etypeSupported t.session.etype && etypeKeyLen t.session.etype == some t.session.value.length &&
      enc.etype == t.session.etype)
  let plain ← (P.decrypt t.session.etype t.session.value USAGE_AUTHENTICATOR enc.cipher).mapError
    .authenticator
  let a ← orMalformed (do single (← single plain (app 2)) SEQUENCE)
  let (vno, a) ← orMalformed ((explicit 0 INTEGER).run a)
  let vno ← orMalformed (int vno)
  require .version (vno == 5)
  let (realm, a) ← orMalformed ((explicit 1 GENERAL_STRING).run a)
  let realm ← orMalformed (string realm)
  let (client, a) ← orMalformed ((explicit 2 SEQUENCE).run a)
  let client ← orMalformed (principal client realm)
  require .clientMismatch (client == t.client)
  let (cksum, a) ← orMalformed ((explicitOpt 3 SEQUENCE).run a)
  let flags ← orMalformed (cksum.elim (.ok 0) gssFlags)
  let (cusec, a) ← orMalformed ((explicit 4 INTEGER).run a)
  let cusec ← orMalformed (int cusec)
  orMalformed (require (DerError.mk "microseconds out of range") (decide (0 ≤ cusec ∧ cusec ≤ 999999)))
  let (ctimeRaw, _) ← orMalformed ((explicit 5 GENERALIZED_TIME).run a)
  let ctime ← orMalformed (time ctimeRaw)
  .ok ⟨flags, cusec, ctimeRaw, ctime⟩

/-! ## The clock -/

/-- The ticket is valid now, and from an accepted realm. -/
def checkTicket (now : Instant) (t : Ticket) : Except AcceptError Unit := do
  require .invalid (!bit t.flags 7)
  require .notYetValid (decide (t.startTime.getD t.authTime - A.maxSkew ≤ now))
  require .expired (decide (now ≤ t.endTime + A.maxSkew))
  require (.realm t.client.realm) (A.realms.any fun r => eqIgnoreAsciiCase r t.client.realm)

/-- The answer of mutual authentication, when it is asked for. -/
def answer (mutualRequired : Bool) (t : Ticket) (a : Authenticator) :
    Except AcceptError (Option (List UInt8)) :=
  if mutualRequired || mutualFlag a.gssFlags then
    ((P.apRep t.session a.ctimeRaw a.cusec).mapError .authenticator).map some
  else .ok none

/-- `Acceptor::accept`. -/
def accept (now : Instant) (apReq : List UInt8) : Except AcceptError Accepted := do
  let req ← readRequest apReq
  let t ← openTicket P A req.ticket
  checkTicket A now t
  let a ← openAuthenticator P t req.authenticator
  require .skew (decide (((a.ctime - now).natAbs : ℤ) ≤ A.maxSkew))
  let apRep ← answer P req.mutualRequired t a
  .ok ⟨t.client, t.authTime, t.endTime, P.hexSha256 req.authenticator.cipher, apRep⟩

/-- What a request is accepted for, if at all: its authenticator's time and the key of its replays. -/
def freshness (apReq : List UInt8) : Except AcceptError (Instant × String) := do
  let req ← readRequest apReq
  let t ← openTicket P A req.ticket
  let a ← openAuthenticator P t req.authenticator
  .ok (a.ctime, P.hexSha256 req.authenticator.cipher)

end Open

variable {P : Platform} {A : Acceptor} {now : Instant} {apReq : List UInt8} {accepted : Accepted}

/-- **Every call that accepts a request** compares its clock with the one client time of the request. -/
lemma accept_eq_ok (h : accept P A now apReq = .ok accepted) :
    ∃ ctime, freshness P A apReq = .ok (ctime, accepted.replayKey) ∧
      ((ctime - now).natAbs : ℤ) ≤ A.maxSkew := by
  obtain ⟨req, hreq, h⟩ := bind_eq_ok.mp h
  obtain ⟨t, ht, h⟩ := bind_eq_ok.mp h
  obtain ⟨-, -, h⟩ := bind_eq_ok.mp h
  obtain ⟨a, ha, h⟩ := bind_eq_ok.mp h
  obtain ⟨_, hskew, h⟩ := bind_eq_ok.mp h
  obtain ⟨apRep, -, h⟩ := bind_eq_ok.mp h
  cases h
  rw [require_eq_ok, decide_eq_true_eq] at hskew
  refine ⟨a.ctime, ?_, hskew⟩
  exact bind_eq_ok.mpr ⟨req, hreq, bind_eq_ok.mpr ⟨t, ht, bind_eq_ok.mpr ⟨a, ha, rfl⟩⟩⟩

end Ridm.Kerberos
