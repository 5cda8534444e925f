import Ridm.Core.Text
import Ridm.Core.Types

/-!
# Reading a SAML response

`validate_response` of `api/src/saml/sp.rs` and the XML helpers it reads with (`api/src/saml/xml.rs`).
What needs a parser or a key is a parameter (`Platform`): `roxmltree`, dates, signatures
(`saml::dsig`) and encryption (`saml::xmlenc`).  None of it looks at the clock.

The function is cut where the clock comes in.  `openResponse` and `locateAssertion` find the assertion
of a response and do not depend on the time; between them stands the check of the response's age
(`checkAge`), and behind them `readAssertion`, which compares the windows of the assertion with it.
-/

namespace Ridm.Saml

/-- Why a message is refused. -/
inductive SamlError
  | malformed (s : String)
  | signature (s : String)
  | unsupported (s : String)
  | crypto (s : String)

/-! ## Elements -/

/-- An element without its content: its name, its attributes without a namespace, and the namespaces in
scope (a prefix, or `none` for the default one). -/
structure Tag where
  ns : Option String
  name : String
  attributes : List (String × String) := []
  namespaces : List (Option String × String) := []

/-- `roxmltree::Node`. -/
inductive Node
  | element (tag : Tag) (content : List Node)
  | text (s : String)
  | other

/-- `roxmltree::Document`. -/
structure Document where
  inputText : String
  root : Node

namespace Node

/-- `Node::attribute`. -/
def attr (name : String) : Node → Option String
  | element tag _ => tag.attributes.lookup name
  | _ => none

/-- `Node::namespaces`. -/
def namespaces : Node → List (Option String × String)
  | element tag _ => tag.namespaces
  | _ => []

/-- `Node::is_element`. -/
def isElement : Node → Bool
  | element _ _ => true
  | _ => false

/-- `Node::children`. -/
def nodes : Node → List Node
  | element _ content => content
  | _ => []

/-- `xml::is`. -/
def is (ns name : String) : Node → Bool
  | element tag _ => tag.name == name && tag.ns == some ns
  | _ => false

/-- `xml::children`. -/
def children (n : Node) (ns name : String) : List Node := n.nodes.filter (is ns name)

/-- `xml::child`. -/
def child (n : Node) (ns name : String) : Except SamlError (Option Node) :=
  match n.children ns name with
  | _ :: _ :: _ => .error (.malformed ("more than one " ++ name ++ " element"))
  | first => .ok first.head?

def asText : Node → Option String
  | text s => some s
  | _ => none

/-- `xml::text_of`. -/
def textOf (n : Node) : String := trim (String.join (n.nodes.filterMap asText))

mutual

/-- `too_deep`, for an element this deep. -/
def tooDeep : ℕ → Node → Bool
  | depth, element _ content => decide (64 < depth) || anyTooDeep (depth + 1) content
  | _, _ => false

def anyTooDeep : ℕ → List Node → Bool
  | _, [] => false
  | depth, n :: rest => tooDeep depth n || anyTooDeep depth rest

end

end Node

/-- A certificate, by its DER. -/
abbrev Certificate := List UInt8

/-- A private key, by its PKCS#8 DER. -/
abbrev PrivateKey := List UInt8

/-- What is not read here. -/
structure Platform where
  /-- `Document::parse_with_options`, by its root element or the text of its error. -/
  parseXml : String → Except String Node
  /-- `DateTime::parse_from_rfc3339`. -/
  parseDateTime : String → Option Instant
  /-- `dsig::verify_enveloped`. -/
  verifyEnveloped : Document → Node → List Certificate → Except SamlError Unit
  /-- `xmlenc::addressed_to`. -/
  addressedTo : Node → PrivateKey → Option Bool
  /-- `xmlenc::decrypt`. -/
  decrypt : Node → PrivateKey → Except SamlError String
  hashed : String → String

/-! ## Words of the protocol -/

/-- `ns::PROTOCOL`. -/
def PROTOCOL : String := "urn:oasis:names:tc:SAML:2.0:protocol"

/-- `ns::ASSERTION`. -/
def ASSERTION : String := "urn:oasis:names:tc:SAML:2.0:assertion"

/-- `ns::DSIG`. -/
def DSIG : String := "http://www.w3.org/2000/09/xmldsig#"

/-- `ns::XENC`. -/
def XENC : String := "http://www.w3.org/2001/04/xmlenc#"

/-- `ns::CM_BEARER`. -/
def CM_BEARER : String := "urn:oasis:names:tc:SAML:2.0:cm:bearer"

/-- `ns::status::SUCCESS`. -/
def SUCCESS : String := "urn:oasis:names:tc:SAML:2.0:status:Success"

/-- `CLOCK_SKEW`, three minutes. -/
def CLOCK_SKEW : ℤ := seconds 180

/-- `MAX_RESPONSE_AGE`, ten minutes. -/
def MAX_RESPONSE_AGE : ℤ := seconds 600

def MAX_DOCUMENT_BYTES : ℕ := 256 * 1024

/-- `Expected`, less the time. -/
structure Expected where
  idpEntityId : String
  spEntityId : String
  acsUrl : String
  inResponseTo : Option String
  certificates : List Certificate
  decryptionKeys : List PrivateKey
  wantAssertionsSigned : Bool
  requireEncrypted : Bool

/-- The subject's name. -/
structure NameId where
  value : String
  format : Option String
  spNameQualifier : Option String

/-- An attribute of the assertion. -/
structure AssertedAttribute where
  name : String
  friendlyName : Option String
  values : List String
  deriving DecidableEq

/-- What an accepted response asserts. -/
structure Asserted where
  assertionId : String
  validUntil : Instant
  nameId : NameId
  sessionIndex : Option String
  sessionNotOnOrAfter : Option Instant
  authnInstant : Option Instant
  authnContext : Option String
  attributes : List AssertedAttribute

/-- Why a response is refused. -/
inductive ResponseError
  | status (code : String) (second message : Option String)
  | invalid (e : SamlError)

/-- `ResponseError::from`, as `?` applies it. -/
def orInvalid {α : Type} (r : Except SamlError α) : Except ResponseError α := r.mapError .invalid

@[simp] lemma orInvalid_eq_ok {α : Type} {r : Except SamlError α} {a : α} :
    orInvalid r = .ok a ↔ r = .ok a := by
  cases r <;> simp [orInvalid, Except.mapError]

def bad (s : String) : SamlError := .malformed s

/-- A child element that has to be there. -/
def needed (message : String) (n : Node) (ns name : String) : Except SamlError Node := do
  orError (bad message) (← n.child ns name)

/-! ## The response -/

section Read

variable (P : Platform)

/-- `xml::parse`. -/
def parse (text : String) : Except SamlError Document := do
  require (.malformed "document too large") (decide (text.utf8ByteSize ≤ MAX_DOCUMENT_BYTES))
  let root ← (P.parseXml text).mapError fun e => .malformed ("not well-formed XML (" ++ e ++ ")")
  require (.malformed "elements nested too deeply") (!root.tooDeep 2)
  .ok ⟨text, root⟩

def time (n : Node) (name : String) : Except SamlError (Option Instant) :=
  match n.attr name with
  | none => .ok none
  | some v => (orError (bad (name ++ " is not a date-time")) (P.parseDateTime (trim v))).map some

def checkIssuer (n : Node) (expected : String) (required : Bool) : Except SamlError Unit := do
  match ← n.child ASSERTION "Issuer" with
  | some el => do
      require (bad "Issuer must be an entity ID")
        ((el.attr "Format").all (· == "urn:oasis:names:tc:SAML:2.0:nameid-format:entity"))
      require (bad "the Issuer is not the registered identity provider") (el.textOf == expected)
  | none => require (bad "the assertion has no Issuer") (!required)

def checkInResponseTo (found expected : Option String) (what : String) : Except SamlError Unit :=
  match found, expected with
  | none, none => .ok ()
  | found, some x =>
      require (bad ("the " ++ what ++ " does not answer the request rIDM sent")) (found == some x)
  | some _, none => .error (bad ("the " ++ what ++ " answers a request, so it is not unsolicited"))

/-- Whether an element is signed; a signature it has must verify. -/
def checkSignature (doc : Document) (n : Node) (e : Expected) : Except SamlError Bool := do
  match ← n.child DSIG "Signature" with
  | some _ => do
      P.verifyEnveloped doc n e.certificates
      .ok true
  | none => .ok false

/-- `validate_response` up to the age of the response: the document and its `IssueInstant`. -/
def openResponse (xmlText : String) : Except SamlError (Document × Instant) := do
  let doc ← parse P xmlText
  require (bad "not a Response") (doc.root.is PROTOCOL "Response")
  require (bad "Version must be 2.0") (doc.root.attr "Version" == some "2.0")
  require (bad "the Response has no ID") (doc.root.attr "ID").isSome
  let issued ← orError (bad "IssueInstant is missing") (← time P doc.root "IssueInstant")
  .ok (doc, issued)

/-- The age of a response. -/
def checkAge (issued now : Instant) : Except SamlError Unit :=
  require (bad "IssueInstant is outside the accepted window (check the IdP's clock)")
    (decide (now - MAX_RESPONSE_AGE - CLOCK_SKEW ≤ issued) && decide (issued ≤ now + CLOCK_SKEW))

/-- Where a response was sent; a signed one must say it. -/
def checkDestination (e : Expected) (responseSigned : Bool) : Option String → Except SamlError Unit
  | some d => require (bad "Destination is not this service provider's consumer URL") (d == e.acsUrl)
  | none => require (bad "a signed Response must name its Destination") (!responseSigned)

/-- The status of a response. -/
def checkStatus (root : Node) : Except ResponseError Unit := do
  let status ← orInvalid (needed "Status is missing" root PROTOCOL "Status")
  let code ← orInvalid (needed "StatusCode is missing" status PROTOCOL "StatusCode")
  let top ← orInvalid (orError (bad "StatusCode has no Value") (code.attr "Value"))
  if top = SUCCESS then .ok ()
  else do
    let second ← orInvalid (code.child PROTOCOL "StatusCode")
    let message ← orInvalid (status.child PROTOCOL "StatusMessage")
    .error (.status top (second.bind (Node.attr "Value")) (message.map Node.textOf))

/-- `xml::escape_attr`. -/
def escapeAttr (s : String) : String :=
  String.join (s.toList.map fun c => match c with
    | '&' => "&amp;"
    | '<' => "&lt;"
    | '"' => "&quot;"
    | '\t' => "&#x9;"
    | '\n' => "&#xA;"
    | '\r' => "&#xD;"
    | c => c.toString)

/-- A decrypted text inside an element that declares the namespaces of where it was. -/
def wrap (namespaces : List (Option String × String)) (decrypted : String) : String :=
  "<w" ++ String.join (namespaces.map fun n => match n with
    | (some p, uri) => " xmlns:" ++ p ++ "=\"" ++ escapeAttr uri ++ "\""
    | (none, uri) => " xmlns=\"" ++ escapeAttr uri ++ "\"") ++ ">" ++ decrypted ++ "</w>"

/-- The keys in the order they are tried: those the data is addressed to first. -/
def orderedKeys (data : Node) (keys : List PrivateKey) : List PrivateKey :=
  keys.filter (fun k => P.addressedTo data k == some true) ++
    keys.filter fun k => P.addressedTo data k != some true

/-- The assertion inside an `EncryptedAssertion`, with the document it is in. -/
def decryptAssertion (container : Node) (e : Expected) : Except SamlError (Document × Node) := do
  let data ← needed "EncryptedAssertion holds no EncryptedData" container XENC "EncryptedData"
  let decrypted ← orError
    (.crypto "the assertion could not be decrypted with this tenant's SAML keys")
    ((orderedKeys P data e.decryptionKeys).findSome? fun k => (P.decrypt data k).toOption)
  let inner ← parse P (wrap container.namespaces decrypted)
  let elements := inner.root.nodes.filter Node.isElement
  let assertion ← orError (bad "the decrypted content is not an assertion")
    (elements.head?.filter (Node.is ASSERTION "Assertion"))
  require (bad "the decrypted content is more than one element") elements.tail.isEmpty
  .ok (inner, assertion)

/-- The only assertion of a response, with the document it is in. -/
def findAssertion (doc : Document) (e : Expected) : Except SamlError (Document × Node) := do
  let plain := (doc.root.children ASSERTION "Assertion").length
  let encrypted := (doc.root.children ASSERTION "EncryptedAssertion").length
  require (bad "a Response must carry exactly one assertion") (plain + encrypted == 1)
  if encrypted = 0 then do
    require (bad "assertions from this identity provider must be encrypted") (!e.requireEncrypted)
    let assertion ← needed "a Response must carry exactly one assertion" doc.root ASSERTION "Assertion"
    .ok (doc, assertion)
  else do
    let container ← needed "a Response must carry exactly one assertion" doc.root ASSERTION
      "EncryptedAssertion"
    decryptAssertion P container e

/-- The assertion of a response: the document it is in, the element, and whether the response is
signed. -/
def locateAssertion (doc : Document) (e : Expected) :
    Except ResponseError (Document × Node × Bool) := do
  orInvalid (checkIssuer doc.root e.idpEntityId false)
  let responseSigned ← orInvalid (checkSignature P doc doc.root e)
  orInvalid (checkDestination e responseSigned (doc.root.attr "Destination"))
  orInvalid (checkInResponseTo (doc.root.attr "InResponseTo") e.inResponseTo "Response")
  checkStatus doc.root
  let found ← orInvalid (findAssertion P doc e)
  .ok (found.1, found.2, responseSigned)

/-! ## The assertion -/

/-- A `NotBefore` lets a time pass. -/
def notBefore (now : Instant) (nb : Option Instant) : Bool := nb.all fun t => decide (t ≤ now + CLOCK_SKEW)

def checkBearer (e : Expected) (now : Instant) (sc : Node) : Except SamlError Instant := do
  let data ← needed "a bearer confirmation has no SubjectConfirmationData" sc ASSERTION
    "SubjectConfirmationData"
  require (bad "the assertion's Recipient is not this service provider's consumer URL")
    (data.attr "Recipient" == some e.acsUrl)
  let ends ← orError (bad "a bearer confirmation must expire (NotOnOrAfter)")
    (← time P data "NotOnOrAfter")
  require (bad "the assertion has expired") (decide (now - CLOCK_SKEW < ends))
  require (bad "the assertion is not valid yet (check the IdP's clock)")
    (notBefore now (← time P data "NotBefore"))
  checkInResponseTo (data.attr "InResponseTo") e.inResponseTo "assertion"
  .ok ends

/-- The first bearer confirmation that passes, or why the first of them does not. -/
def confirm (e : Expected) (now : Instant) : List Node → List SamlError → Except SamlError Instant
  | [], reasons =>
      .error (reasons.head?.getD (bad "the assertion has no bearer SubjectConfirmation"))
  | sc :: rest, reasons =>
      if sc.attr "Method" = some CM_BEARER then
        match checkBearer P e now sc with
        | .ok ends => .ok ends
        | .error r => confirm e now rest (reasons ++ [r])
      else confirm e now rest reasons

/-- The subject of an assertion, and until when it is confirmed. -/
def readSubject (e : Expected) (now : Instant) (a : Node) : Except SamlError (NameId × Instant) := do
  let subject ← needed "Subject is missing" a ASSERTION "Subject"
  let encryptedId ← subject.child ASSERTION "EncryptedID"
  require (.unsupported "an encrypted NameID") encryptedId.isNone
  let el ← needed "NameID is missing" subject ASSERTION "NameID"
  let nameId : NameId := ⟨el.textOf, el.attr "Format", el.attr "SPNameQualifier"⟩
  require (bad "the NameID is empty or too long")
    (!nameId.value.isEmpty && decide (nameId.value.utf8ByteSize ≤ 512))
  let ends ← confirm P e now (subject.children ASSERTION "SubjectConfirmation") []
  .ok (nameId, ends)

/-- The conditions of an assertion that is confirmed until a time: until when it is valid. -/
def checkConditions (e : Expected) (now : Instant) (a : Node) (confirmed : Instant) :
    Except SamlError Instant := do
  let conditions ← needed "Conditions are missing" a ASSERTION "Conditions"
  require (bad "the assertion is not valid yet (check the IdP's clock)")
    (notBefore now (← time P conditions "NotBefore"))
  let na ← time P conditions "NotOnOrAfter"
  require (bad "the assertion has expired") (na.all fun t => decide (now - CLOCK_SKEW < t))
  let restrictions := conditions.children ASSERTION "AudienceRestriction"
  require (bad "the assertion names no audience") (!restrictions.isEmpty)
  require (bad "the assertion is meant for another service provider")
    (restrictions.all fun r => (r.children ASSERTION "Audience").any fun au => au.textOf == e.spEntityId)
  .ok (min confirmed (na.getD confirmed))

/-- The `AuthnContextClassRef` of a statement. -/
def authnContext (authn : Node) : Except SamlError (Option String) := do
  let context ← authn.child ASSERTION "AuthnContext"
  .ok ((context.bind fun c => (c.child ASSERTION "AuthnContextClassRef").toOption.join).map Node.textOf)

/-- The attributes of an assertion. -/
def readAttributes (a : Node) : Except SamlError (List AssertedAttribute) :=
  ((a.children ASSERTION "AttributeStatement").flatMap fun s => s.children ASSERTION "Attribute").mapM
    fun el => do
      let name ← orError (bad "an Attribute has no Name") (el.attr "Name")
      .ok ⟨name, el.attr "FriendlyName",
        (el.children ASSERTION "AttributeValue").map Node.textOf⟩

def readAssertion (doc : Document) (a : Node) (responseSigned : Bool) (e : Expected) (now : Instant) :
    Except SamlError Asserted := do
  let assertionSigned ← checkSignature P doc a e
  require (bad "the assertion must be signed") (!e.wantAssertionsSigned || assertionSigned)
  require (.signature "neither the Response nor the assertion is signed")
    (assertionSigned || responseSigned)
  require (bad "the assertion's Version must be 2.0") (a.attr "Version" == some "2.0")
  let assertionId ← orError (bad "the assertion has no ID") (a.attr "ID")
  checkIssuer a e.idpEntityId true
  let subject ← readSubject P e now a
  let validUntil ← checkConditions P e now a subject.2
  let authn ← orError (bad "the assertion has no AuthnStatement")
    (a.children ASSERTION "AuthnStatement").head?
  let sessionNotOnOrAfter ← time P authn "SessionNotOnOrAfter"
  require (bad "the identity provider's session has already ended")
    (sessionNotOnOrAfter.all fun t => decide (now - CLOCK_SKEW < t))
  let context ← authnContext authn
  let attributes ← readAttributes a
  let authnInstant ← time P authn "AuthnInstant"
  .ok { assertionId := assertionId
        validUntil := validUntil
        nameId := subject.1
        sessionIndex := authn.attr "SessionIndex"
        sessionNotOnOrAfter := sessionNotOnOrAfter
        authnInstant := authnInstant
        authnContext := context
        attributes := attributes }

def validateResponse (xmlText : String) (e : Expected) (now : Instant) :
    Except ResponseError Asserted := do
  let opened ← orInvalid (openResponse P xmlText)
  orInvalid (checkAge opened.2 now)
  let found ← locateAssertion P opened.1 e
  orInvalid (readAssertion P found.1 found.2.1 found.2.2 e now)

end Read

end Ridm.Saml
