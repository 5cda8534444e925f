import Ridm.Lib.ExpiringMarks
import Ridm.Saml.Response

/-!
# Assertions are consumed once

The assertion consumer service (`acs` of `api/src/services/saml_sp.rs`) marks the assertion of every
response it accepts, until `valid_until` and the clock skew are over and for a minute at least.
`valid_until` comes from the first bearer confirmation that confirms the subject *now*; a later use
may be confirmed by another one that ends later, and the mark's life is counted in whole seconds.
`assertion_mark_lasts_iff` says exactly when the mark of a first use is there for a second one.
-/

namespace Ridm.Saml

/-- `BrokerError`, as far as the consumer service answers with it. -/
inductive BrokerError
  | denied
  | upstream

/-- `ns::status::REQUEST_DENIED`. -/
def REQUEST_DENIED : String := "urn:oasis:names:tc:SAML:2.0:status:RequestDenied"

/-- `ns::status::AUTHN_FAILED`. -/
def AUTHN_FAILED : String := "urn:oasis:names:tc:SAML:2.0:status:AuthnFailed"

/-- How a response that gives no identity ends. -/
def brokerError : ResponseError → BrokerError
  | .status _ second _ =>
      if second = some REQUEST_DENIED ∨ second = some AUTHN_FAILED then .denied else .upstream
  | .invalid _ => .upstream

/-- The marks of used assertions, by tenant, identity provider and hashed ID. -/
abbrev UsedAssertions := Marks (Uuid × Uuid × String) Instant

/-- The seconds an assertion is remembered. -/
def replayTtl (validUntil now : Instant) : ℤ := max 60 (numSeconds (validUntil - now + CLOCK_SKEW))

section Acs

variable (P : Platform) (tenantId idpId : Uuid) (xmlText : String) (e : Expected)

/-- `acs` from the validation of a response to the mark of its assertion (`first_sighting`). -/
def acs (now : Instant) (used : UsedAssertions) : Except BrokerError Asserted × UsedAssertions :=
  match validateResponse P xmlText e now with
  | .error err => (.error (brokerError err), used)
  | .ok asserted =>
      let seen := used.claim (tenantId, idpId, P.hashed asserted.assertionId) now
        (now + seconds (max 1 (replayTtl asserted.validUntil now)))
      (if seen.1 then .ok asserted else .error .upstream, seen.2)

/-- `validate_response` accepts. -/
def Accepts (now : Instant) : Prop := ∃ asserted, validateResponse P xmlText e now = .ok asserted

/-- Whatever was marked before, the mark of an accepted use at one time is there at another, and a use
then is refused. -/
def MarkLasts (t₁ t₂ : Instant) : Prop :=
  ∀ used asserted, (acs P tenantId idpId xmlText e t₁ used).1 = .ok asserted →
    (acs P tenantId idpId xmlText e t₁ used).2.isThere
        (tenantId, idpId, P.hashed asserted.assertionId) t₂ = true ∧
      (acs P tenantId idpId xmlText e t₂ (acs P tenantId idpId xmlText e t₁ used).2).1 =
        .error .upstream

def assertionOf : Option Node :=
  ((openResponse P xmlText).toOption.bind fun opened =>
    (locateAssertion P opened.1 e).toOption).map fun found => found.2.1

def subjectConfirmations (a : Node) : List Node :=
  ((a.child ASSERTION "Subject").toOption.join.map fun subject =>
    subject.children ASSERTION "SubjectConfirmation").getD []

/-- The `NotOnOrAfter` of the first bearer confirmation that passes `check_bearer` at a time. -/
def confirmedUntil (a : Node) (now : Instant) : Option Instant :=
  (subjectConfirmations a).findSome? fun sc =>
    if sc.attr "Method" = some CM_BEARER then (checkBearer P e now sc).toOption else none

/-- The `NotOnOrAfter` of an assertion's conditions. -/
def conditionsUntil (a : Node) : Option Instant :=
  (a.child ASSERTION "Conditions").toOption.join.bind fun conditions =>
    (time P conditions "NotOnOrAfter").toOption.join

end Acs

/-! ## What an accepted response says -/

section Accepted

variable {P : Platform} {xmlText : String} {e : Expected} {now : Instant} {a : Node}

lemma toOption_of_eq_ok {ε α : Type} {r : Except ε α} {x : α} (h : r = .ok x) :
    r.toOption = some x := by
  rw [h]
  rfl

lemma needed_eq_ok {message : String} {n el : Node} {ns name : String} :
    needed message n ns name = .ok el ↔ n.child ns name = .ok (some el) := by
  simp only [needed, bind_eq_ok, orError_eq_ok]
  constructor
  · rintro ⟨found, hfound, rfl⟩
    exact hfound
  · intro h
    exact ⟨_, h, rfl⟩

lemma confirm_eq_ok {scs : List Node} {reasons : List SamlError} {ends : Instant} :
    confirm P e now scs reasons = .ok ends ↔ (scs.findSome? fun sc =>
      if sc.attr "Method" = some CM_BEARER then (checkBearer P e now sc).toOption else none) =
        some ends := by
  induction scs generalizing reasons with
  | nil => simp [confirm]
  | cons sc rest ih =>
      rw [confirm, List.findSome?_cons]
      split_ifs with hmethod
      · cases checkBearer P e now sc with
        | ok until_ => simp [Except.toOption]
        | error r => simpa [Except.toOption] using ih
      · exact ih

lemma readSubject_ends {nameId : NameId} {ends : Instant}
    (h : readSubject P e now a = .ok (nameId, ends)) : confirmedUntil P e a now = some ends := by
  simp only [readSubject, bind_eq_ok, needed_eq_ok] at h
  obtain ⟨subject, hsubject, _, -, -, -, el, -, -, -, ends', hconfirm, hfin⟩ := h
  cases hfin
  rw [confirm_eq_ok] at hconfirm
  rw [confirmedUntil, subjectConfirmations, toOption_of_eq_ok hsubject]
  exact hconfirm

lemma checkConditions_ends {confirmed validUntil : Instant}
    (h : checkConditions P e now a confirmed = .ok validUntil) :
    validUntil = min confirmed ((conditionsUntil P a).getD confirmed) := by
  simp only [checkConditions, bind_eq_ok, needed_eq_ok] at h
  obtain ⟨conditions, hconditions, _, -, -, -, na, hna, -, -, -, -, -, -, hfin⟩ := h
  cases hfin
  rw [conditionsUntil, toOption_of_eq_ok hconditions]
  simp only [Option.join_some, Option.bind_some]
  rw [toOption_of_eq_ok hna]
  rfl

lemma readAssertion_eq_ok {doc : Document} {signed : Bool} {asserted : Asserted}
    (h : readAssertion P doc a signed e now = .ok asserted) :
    a.attr "ID" = some asserted.assertionId ∧ ∃ ends, confirmedUntil P e a now = some ends ∧
      asserted.validUntil = min ends ((conditionsUntil P a).getD ends) := by
  simp only [readAssertion, bind_eq_ok, orError_eq_ok] at h
  obtain ⟨_, -, -, -, -, -, -, -, id, hid, -, -, ⟨nameId, ends⟩, hsubject, validUntil, hconditions,
    _, -, _, -, -, -, _, -, _, -, _, -, hfin⟩ := h
  cases hfin
  exact ⟨hid, ends, readSubject_ends hsubject, checkConditions_ends hconditions⟩

/-- **What an accepted response says.**  Its assertion does not depend on the time; the assertion's ID
is what is remembered, and how long follows from its windows. -/
lemma validateResponse_eq_ok {asserted : Asserted}
    (h : validateResponse P xmlText e now = .ok asserted) :
    ∃ a ends, assertionOf P xmlText e = some a ∧ a.attr "ID" = some asserted.assertionId ∧
      confirmedUntil P e a now = some ends ∧
      asserted.validUntil = min ends ((conditionsUntil P a).getD ends) := by
  simp only [validateResponse, bind_eq_ok, orInvalid_eq_ok] at h
  obtain ⟨⟨doc, issued⟩, hopened, -, -, ⟨doc', a, signed⟩, hfound, hread⟩ := h
  obtain ⟨hid, ends, hends, hvalid⟩ := readAssertion_eq_ok hread
  refine ⟨a, ends, ?_, hid, hends, hvalid⟩
  rw [assertionOf, toOption_of_eq_ok hopened, Option.bind_some, toOption_of_eq_ok hfound]
  rfl

end Accepted

/-! ## Using an assertion twice -/

section Twice

variable {P : Platform} {tenantId idpId : Uuid} {xmlText : String} {e : Expected} {now t₁ t₂ : Instant}
  {a : Node} {ends : Instant} {used : UsedAssertions} {asserted : Asserted}

def markEnd (P : Platform) (a : Node) (ends now : Instant) : Instant :=
  now + seconds (max 60 (numSeconds (min ends ((conditionsUntil P a).getD ends) - now + CLOCK_SKEW)))

lemma acs_eq_ok : (acs P tenantId idpId xmlText e now used).1 = .ok asserted ↔
    validateResponse P xmlText e now = .ok asserted ∧
      used.isThere (tenantId, idpId, P.hashed asserted.assertionId) now = false := by
  rw [acs]
  cases validateResponse P xmlText e now with
  | error err => simp
  | ok asserted' =>
      simp only [Marks.claim_fst]
      constructor
      · intro h
        split_ifs at h with hfree
        cases h
        exact ⟨rfl, by simpa using hfree⟩
      · rintro ⟨h, hfree⟩
        cases h
        simp [hfree]

lemma isThere_acs (ha : assertionOf P xmlText e = some a) (hends : confirmedUntil P e a t₁ = some ends)
    (h : (acs P tenantId idpId xmlText e t₁ used).1 = .ok asserted) :
    (acs P tenantId idpId xmlText e t₁ used).2.isThere
      (tenantId, idpId, P.hashed asserted.assertionId) t₂ = decide (t₂ < markEnd P a ends t₁) := by
  obtain ⟨hvalid, hfree⟩ := acs_eq_ok.mp h
  obtain ⟨a', ends', ha', -, hends', huntil⟩ := validateResponse_eq_ok hvalid
  obtain rfl : a' = a := Option.some.inj (ha'.symm.trans ha)
  obtain rfl : ends' = ends := Option.some.inj (hends'.symm.trans hends)
  have hfloor : max 1 (replayTtl asserted.validUntil t₁) = replayTtl asserted.validUntil t₁ := by
    rw [replayTtl]
    omega
  simp only [acs, hvalid, Marks.isThere_claim hfree, hfloor]
  rw [replayTtl, huntil, markEnd]

lemma acs_of_isThere {asserted' : Asserted} (hvalid : validateResponse P xmlText e now = .ok asserted)
    (hsame : asserted'.assertionId = asserted.assertionId)
    (h : used.isThere (tenantId, idpId, P.hashed asserted'.assertionId) now = true) :
    (acs P tenantId idpId xmlText e now used).1 = .error .upstream := by
  simp only [acs, hvalid, Marks.claim_fst]
  rw [← hsame, h]
  rfl

lemma same_assertionId {asserted₁ asserted₂ : Asserted}
    (h₁ : validateResponse P xmlText e t₁ = .ok asserted₁)
    (h₂ : validateResponse P xmlText e t₂ = .ok asserted₂) :
    asserted₁.assertionId = asserted₂.assertionId := by
  obtain ⟨a₁, -, ha₁, hid₁, -⟩ := validateResponse_eq_ok h₁
  obtain ⟨a₂, -, ha₂, hid₂, -⟩ := validateResponse_eq_ok h₂
  obtain rfl : a₁ = a₂ := Option.some.inj (ha₁.symm.trans ha₂)
  exact Option.some.inj (hid₁.symm.trans hid₂)

end Twice

/-- **When an assertion is consumed once.**  For every response that is accepted at two times, with the
assertion it carries and the `NotOnOrAfter` of the first bearer confirmation that passes at the first
of them, the mark of the first use is there for the second, which is refused, exactly when the second
comes within the whole seconds from the first to the end of that confirmation or of the conditions,
whichever is earlier, with the clock skew on top, or within a minute. -/
theorem assertion_mark_lasts_iff (P : Platform) (tenantId idpId : Uuid) (xmlText : String)
    (e : Expected) (t₁ t₂ : Instant) (h₁ : Accepts P xmlText e t₁) (h₂ : Accepts P xmlText e t₂)
    (a : Node) (ends : Instant) (ha : assertionOf P xmlText e = some a)
    (hends : confirmedUntil P e a t₁ = some ends) :
    MarkLasts P tenantId idpId xmlText e t₁ t₂ ↔
      t₂ < t₁ + seconds (max 60
        (numSeconds (min ends ((conditionsUntil P a).getD ends) - t₁ + CLOCK_SKEW))) := by
  obtain ⟨asserted₁, hvalid₁⟩ := h₁
  obtain ⟨asserted₂, hvalid₂⟩ := h₂
  constructor
  · intro hlasts
    have hfirst : (acs P tenantId idpId xmlText e t₁ Marks.empty).1 = .ok asserted₁ :=
      acs_eq_ok.mpr ⟨hvalid₁, rfl⟩
    have hthere := (hlasts _ _ hfirst).1
    rw [isThere_acs ha hends hfirst] at hthere
    exact of_decide_eq_true hthere
  · intro hbefore used asserted hfirst
    have hthere : (acs P tenantId idpId xmlText e t₁ used).2.isThere
        (tenantId, idpId, P.hashed asserted.assertionId) t₂ = true := by
      rw [isThere_acs ha hends hfirst]
      exact decide_eq_true hbefore
    exact ⟨hthere, acs_of_isThere hvalid₂ (same_assertionId (acs_eq_ok.mp hfirst).1 hvalid₂) hthere⟩

/-! ## An assertion that is consumed twice -/

def tagged (ns name : String) (attributes : List (String × String)) (content : List Node) : Node :=
  .element { ns := some ns, name := name, attributes := attributes, namespaces :=
    [(some "p", PROTOCOL), (some "d", DSIG), (some "a", ASSERTION)] } content

def sampleConfirmation (ends : String) : Node :=
  tagged ASSERTION "SubjectConfirmation" [("Method", CM_BEARER)]
    [tagged ASSERTION "SubjectConfirmationData"
      [("Recipient", "https://id.example/acs"), ("NotOnOrAfter", ends)] []]

def sampleAssertion : Node :=
  tagged ASSERTION "Assertion" [("ID", "_a1"), ("Version", "2.0")]
    [tagged ASSERTION "Issuer" [] [.text "https://idp.example"],
      tagged ASSERTION "Subject" []
        [tagged ASSERTION "NameID" [] [.text "ada"], sampleConfirmation "2024-01-01T00:01:00Z",
          sampleConfirmation "2024-01-01T00:05:00Z"],
      tagged ASSERTION "Conditions" [("NotOnOrAfter", "2024-01-01T00:10:00Z")]
        [tagged ASSERTION "AudienceRestriction" []
          [tagged ASSERTION "Audience" [] [.text "https://id.example/sp"]]],
      tagged ASSERTION "AuthnStatement" [] []]

def sampleResponse : Node :=
  tagged PROTOCOL "Response"
    [("ID", "_r1"), ("Version", "2.0"), ("IssueInstant", "2024-01-01T00:00:00Z"),
      ("Destination", "https://id.example/acs")]
    [tagged DSIG "Signature" [] [],
      tagged PROTOCOL "Status" [] [tagged PROTOCOL "StatusCode" [("Value", SUCCESS)] []],
      sampleAssertion]

def confirmationText (ends : String) : String :=
  "<a:SubjectConfirmation Method=\"" ++ CM_BEARER ++ "\"><a:SubjectConfirmationData " ++
    "Recipient=\"https://id.example/acs\" NotOnOrAfter=\"" ++ ends ++ "\"/></a:SubjectConfirmation>"

/-- The text that `sampleResponse` is read from. -/
def sampleText : String :=
  "<p:Response xmlns:p=\"" ++ PROTOCOL ++ "\" xmlns:d=\"" ++ DSIG ++ "\" xmlns:a=\"" ++ ASSERTION ++
    "\" ID=\"_r1\" Version=\"2.0\" IssueInstant=\"2024-01-01T00:00:00Z\" " ++
    "Destination=\"https://id.example/acs\"><d:Signature/><p:Status><p:StatusCode Value=\"" ++ SUCCESS ++
    "\"/></p:Status><a:Assertion ID=\"_a1\" Version=\"2.0\"><a:Issuer>https://idp.example</a:Issuer>" ++
    "<a:Subject><a:NameID>ada</a:NameID>" ++ confirmationText "2024-01-01T00:01:00Z" ++
    confirmationText "2024-01-01T00:05:00Z" ++
    "</a:Subject><a:Conditions NotOnOrAfter=\"2024-01-01T00:10:00Z\"><a:AudienceRestriction>" ++
    "<a:Audience>https://id.example/sp</a:Audience></a:AudienceRestriction></a:Conditions>" ++
    "<a:AuthnStatement/></a:Assertion></p:Response>"

def midnight : Instant := seconds 1704067200

def samplePlatform : Platform where
  parseXml s := if s = sampleText then .ok sampleResponse else .error "invalid XML"
  parseDateTime s := match s with
    | "2024-01-01T00:00:00Z" => some midnight
    | "2024-01-01T00:01:00Z" => some (midnight + seconds 60)
    | "2024-01-01T00:05:00Z" => some (midnight + seconds 300)
    | "2024-01-01T00:10:00Z" => some (midnight + seconds 600)
    | _ => none
  verifyEnveloped _ _ _ := .ok ()
  addressedTo _ _ := none
  decrypt _ _ := .error (.crypto "no key")
  hashed s := s

def sampleExpected : Expected where
  idpEntityId := "https://idp.example"
  spEntityId := "https://id.example/sp"
  acsUrl := "https://id.example/acs"
  inResponseTo := none
  certificates := [[1]]
  decryptionKeys := []
  wantAssertionsSigned := false
  requireEncrypted := false

def sampleAsserted (validUntil : Instant) : Asserted where
  assertionId := "_a1"
  validUntil := validUntil
  nameId := ⟨"ada", none, none⟩
  sessionIndex := none
  sessionNotOnOrAfter := none
  authnInstant := none
  authnContext := none
  attributes := []

lemma sample_opened :
    openResponse samplePlatform sampleText = .ok (⟨sampleText, sampleResponse⟩, midnight) := by
  have hparse : samplePlatform.parseXml sampleText = .ok sampleResponse := by
    simp only [samplePlatform, if_true]
  have hsize : decide (sampleText.utf8ByteSize ≤ MAX_DOCUMENT_BYTES) = true := by decide +kernel
  rw [openResponse, parse, hparse, hsize]
  rfl

lemma sample_accepted_first : validateResponse samplePlatform sampleText sampleExpected midnight =
    .ok (sampleAsserted (midnight + seconds 60)) := by
  rw [validateResponse, sample_opened]
  rfl

lemma sample_accepted_later :
    validateResponse samplePlatform sampleText sampleExpected (midnight + seconds 300) =
      .ok (sampleAsserted (midnight + seconds 300)) := by
  rw [validateResponse, sample_opened]
  rfl

lemma sample_accepted_soon :
    validateResponse samplePlatform sampleText sampleExpected (midnight + seconds 239) =
      .ok (sampleAsserted (midnight + seconds 60)) := by
  rw [validateResponse, sample_opened]
  rfl

/-- The mark of a use at midnight is there for a use a second less than four minutes later. -/
theorem assertion_mark_lasts_four_minutes :
    MarkLasts samplePlatform 1 2 sampleText sampleExpected midnight (midnight + seconds 239) :=
  (assertion_mark_lasts_iff samplePlatform 1 2 sampleText sampleExpected midnight
    (midnight + seconds 239) ⟨_, sample_accepted_first⟩ ⟨_, sample_accepted_soon⟩ sampleAssertion
    (midnight + seconds 60) (by rw [assertionOf, sample_opened]; rfl) (by rfl)).mpr (by decide +kernel)

/-- **An assertion is consumed twice.**  The response is accepted at midnight, when the first of its
confirmations passes, and the mark ends four minutes later; at five past the second one still
passes, and the response is accepted again. -/
theorem assertion_consumed_twice :
    ∃ used, (acs samplePlatform 1 2 sampleText sampleExpected midnight Marks.empty) =
        (.ok (sampleAsserted (midnight + seconds 60)), used) ∧
      used.isThere (1, 2, "_a1") (midnight + seconds 300) = false ∧
      (acs samplePlatform 1 2 sampleText sampleExpected (midnight + seconds 300) used).1 =
        .ok (sampleAsserted (midnight + seconds 300)) := by
  refine ⟨(acs samplePlatform 1 2 sampleText sampleExpected midnight Marks.empty).2, ?_, ?_, ?_⟩
  · rw [acs, sample_accepted_first]
    rfl
  · rw [acs, sample_accepted_first]
    rfl
  · rw [acs, acs, sample_accepted_first, sample_accepted_later]
    rfl

end Ridm.Saml
