import Ridm.Lib.FormUrlencoded
import Ridm.Saml.Signer

/-!
# The Redirect binding

`to_redirect` and `from_redirect` of `api/src/saml/binding.rs`.  A message travels in a query: deflated, in
base64 and form-encoded, with a `RelayState` and, when it is signed, `SigAlg` and `Signature` behind it.
The signature covers the parameters as they were encoded, so the receiver puts its octets together again
from the raw values.  DEFLATE is a parameter (`Deflate`), by what it writes and the first octets it reads.

`redirect_round_trip` says that what `to_redirect` sends is read as it was sent, with the octets that were
signed, and which sizes are refused.  `signed_covers` says that the signed octets determine the message:
raw values have no `&`, so there is one way to read them (`signedText_inj`).
-/

namespace Ridm.Saml

open Utf8 (utf8 fromUtf8)

def MAX_RELAY_STATE : ℕ := 2048

/-- Which parameter carries the message. -/
inductive Kind
  | request
  | response

/-- `Kind::param`. -/
def Kind.param : Kind → String
  | .request => "SAMLRequest"
  | .response => "SAMLResponse"

/-- The signature of a query. -/
structure RedirectSignature where
  alg : SignatureAlg
  value : List UInt8
  signed : String

/-- What a redirect brought. -/
structure Received where
  kind : Kind
  xml : String
  relayState : Option String
  signature : Option RedirectSignature

/-- What is not read here: `flate2`, and what a form reader puts for octets that are not UTF-8. -/
structure Deflate where
  deflate : List UInt8 → Option (List UInt8)
  /-- So many octets of what the decoder reads, or an error before them. -/
  inflate : ℕ → List UInt8 → Option (List UInt8)
  /-- `String::from_utf8_lossy`, of octets that are not UTF-8. -/
  replaced : List UInt8 → String

/-! ## Reading -/

/-- The parameters found so far, in their raw encoding. -/
structure Slots where
  message : Option (Kind × String) := none
  relay : Option String := none
  sigAlg : Option String := none
  signature : Option String := none

/-- A parameter goes into its slot; a slot is filled once. -/
def Slots.put (s : Slots) (name value : String) : Except SamlError Slots :=
  if name = "SAMLRequest" ∨ name = "SAMLResponse" then
    if s.message.isSome then .error (.malformed "more than one SAML message")
    else .ok { s with message := some (if name = "SAMLRequest" then .request else .response, value) }
  else if name = "RelayState" then
    if s.relay.isSome then .error (.malformed (name ++ " is repeated")) else .ok { s with relay := some value }
  else if name = "SigAlg" then
    if s.sigAlg.isSome then .error (.malformed (name ++ " is repeated")) else .ok { s with sigAlg := some value }
  else if name = "Signature" then
    if s.signature.isSome then .error (.malformed (name ++ " is repeated"))
    else .ok { s with signature := some value }
  else .ok s

def nameValue (pair : String) : String × String := (splitOnce pair '=').getD (pair, "")

/-- One parameter of a query. -/
def Slots.read (s : Slots) (pair : String) : Except SamlError Slots :=
  s.put (nameValue pair).1 (nameValue pair).2

/-- The parameters of a query. -/
def readSlots (rawQuery : String) : Except SamlError Slots :=
  ((split rawQuery '&').filter (· ≠ "")).foldlM Slots.read {}

section Read

variable (D : Deflate)

def decodeComponent (raw : String) : String :=
  (((FormUrlencoded.parse D.replaced ("x=" ++ raw)).head?).map Prod.snd).getD ""

def relayState : Option String → Except SamlError (Option String)
  | some r =>
      if MAX_RELAY_STATE < r.utf8ByteSize then .error (.malformed "RelayState is too long")
      else if r = "" then .ok none
      else .ok (some r)
  | none => .ok none

def inflate (compressed : List UInt8) : Except SamlError String := do
  let out ← orError (.malformed "the message is not DEFLATE-compressed")
    (D.inflate (MAX_DOCUMENT_BYTES + 1) compressed)
  require (.malformed "the message is too large") (decide (out.length ≤ MAX_DOCUMENT_BYTES))
  orError (.malformed "the message is not UTF-8") (fromUtf8 out)

/-- The XML of a raw message. -/
def readMessage (rawMessage : String) : Except SamlError String := do
  require (.malformed "the message is too large")
    (decide (rawMessage.utf8ByteSize ≤ MAX_DOCUMENT_BYTES))
  let compressed ← base64Content (decodeComponent D rawMessage)
  inflate D compressed

/-- The octets that were signed: the parameters in their received encoding. -/
def signedText (kind : Kind) (rawMessage : String) (relay : Option String) (sigAlg : String) : String :=
  kind.param ++ "=" ++ rawMessage ++ (relay.elim "" fun r => "&RelayState=" ++ r) ++ "&SigAlg=" ++ sigAlg

/-- The signature of a query. -/
def readSignature (kind : Kind) (rawMessage : String) (s : Slots) :
    Except SamlError (Option RedirectSignature) :=
  match s.sigAlg, s.signature with
  | none, none => .ok none
  | some a, some v => do
      let alg ← SignatureAlg.fromUri (decodeComponent D a)
      let value ← base64Content (decodeComponent D v)
      .ok (some ⟨alg, value, signedText kind rawMessage s.relay a⟩)
  | _, _ => .error (.signature "SigAlg and Signature come together")

def fromRedirect (rawQuery : String) : Except SamlError Received := do
  let s ← readSlots rawQuery
  let (kind, rawMessage) ← orError (.malformed "no SAML message") s.message
  let xml ← readMessage D rawMessage
  let signature ← readSignature D kind rawMessage s
  let relay ← relayState (s.relay.map (decodeComponent D))
  .ok ⟨kind, xml, relay, signature⟩

/-! ## Writing -/

def encodeComponent (s : String) : String := String.ofList (FormUrlencoded.byteSerialize (utf8 s))

/-- The `RelayState` behind a message. -/
def withRelay (query : String) : Option String → String
  | some r => query ++ "&RelayState=" ++ encodeComponent r
  | none => query

/-- The signature behind what it covers. -/
def withSignature (query : String) : Option Signer → Except SamlError String
  | some signer => do
      let query := query ++ "&SigAlg=" ++ encodeComponent signer.alg.uri
      let sig ← signer.sign (utf8 query)
      .ok (query ++ "&Signature=" ++ encodeComponent (base64Encode sig))
  | none => .ok query

/-- What stands between an endpoint and the query. -/
def separator (endpoint : String) : String := if endpoint.toList.contains '?' then "&" else "?"

def toRedirect (endpoint : String) (kind : Kind) (xml : String) (relay : Option String)
    (signer : Option Signer) : Except SamlError String := do
  let compressed ← orError (.crypto "compression failed") (D.deflate (utf8 xml))
  let query := kind.param ++ "=" ++ encodeComponent (base64Encode compressed)
  let query ← withSignature (withRelay query relay) signer
  .ok (endpoint ++ separator endpoint ++ query)

end Read

/-! ## Parameters in a query -/

/-- A parameter as it stands in a query. -/
def field (p : String × String) : String := p.1 ++ "=" ++ p.2

/-- The names that mean something to `from_redirect`. -/
def SAML_PARAMS : List String := ["SAMLRequest", "SAMLResponse", "RelayState", "SigAlg", "Signature"]

/-- The query of a URL, without its fragment. -/
def queryOf (url : String) : String :=
  ((splitOnce (String.ofList (url.toList.takeWhile (· != '#'))) '?').map Prod.snd).getD ""

lemma nameValue_field {p : String × String} (h : '=' ∉ p.1.toList) : nameValue (field p) = p := by
  have hsplit : splitOnce (field p) '=' = some (p.1, p.2) := splitOnce_append h
  rw [nameValue, hsplit, Option.getD_some]

variable {signature : Option (String × String)} {compressed : List UInt8} {s : Slots}
  {query : String} {rawMessage : String} {name value : String} {c : Char}

lemma put_of_notMem (h : name ∉ SAML_PARAMS) :
    s.put name value = .ok s := by
  simp only [SAML_PARAMS, List.mem_cons, List.not_mem_nil, or_false, not_or] at h
  obtain ⟨hrequest, hresponse, hrelay, halg, hsignature⟩ := h
  rw [Slots.put, if_neg (by tauto), if_neg hrelay, if_neg halg, if_neg hsignature]

lemma readAll_of_notMem {pairs : List String}
    (h : ∀ pair ∈ pairs, (nameValue pair).1 ∉ SAML_PARAMS) :
    pairs.foldlM Slots.read s = .ok s := by
  induction pairs with
  | nil => rfl
  | cons pair pairs ih =>
      rw [List.forall_mem_cons] at h
      rw [List.foldlM_cons, Slots.read, put_of_notMem h.1]
      exact ih h.2

/-- The parameters of a message: what was signed, then the signature. -/
def fields (kind : Kind) (rawMessage : String) (relay : Option String) (signature : Option (String × String)) :
    List (String × String) :=
  (kind.param, rawMessage) :: ((relay.map fun r => ("RelayState", r)).toList ++
    (signature.elim [] fun s => [("SigAlg", s.1), ("Signature", s.2)]))

/-- Parameters with `&` between them. -/
def queryText (l : List (String × String)) : String := String.intercalate "&" (l.map field)

lemma field_ne_empty (p : String × String) : field p ≠ "" := by
  rw [field, Ne, ← String.toList_inj]
  simp

/-- **A message's parameters find their slots**, behind the parameters of the endpoint. -/
lemma readAll_fields (kind : Kind) (rawMessage : String) (relay : Option String)
    (signature : Option (String × String)) :
    ((fields kind rawMessage relay signature).map field).foldlM Slots.read {} =
      .ok ⟨some (kind, rawMessage), relay, signature.map Prod.fst, signature.map Prod.snd⟩ := by
  have hname : ∀ p ∈ fields kind rawMessage relay signature, '=' ∉ p.1.toList := by
    cases kind <;> cases relay <;> cases signature <;> simp [fields, Kind.param]
  have hread : ∀ (s : Slots), ((fields kind rawMessage relay signature).map field).foldlM Slots.read s =
      (fields kind rawMessage relay signature).foldlM (fun s p => s.put p.1 p.2) s := by
    generalize fields kind rawMessage relay signature = l at hname
    induction l with
    | nil => exact fun _ => rfl
    | cons p l ih =>
        intro s
        rw [List.forall_mem_cons] at hname
        rw [List.map_cons, List.foldlM_cons, List.foldlM_cons, Slots.read, nameValue_field hname.1]
        exact bind_congr fun s' => ih hname.2 s'
  rw [hread]
  cases kind <;> cases relay <;> cases signature <;> rfl

/-- **A query with a message in it**: what the endpoint's own parameters are does not matter, as long as
none has one of the five names. -/
lemma readSlots_append {own : String} {kind : Kind} {relay : Option String}
    (hplain : ∀ p ∈ fields kind rawMessage relay signature, '&' ∉ p.2.toList)
    (hown : ∀ pair ∈ split own '&', (nameValue pair).1 ∉ SAML_PARAMS) :
    readSlots (own ++ "&" ++ queryText (fields kind rawMessage relay signature)) =
      .ok ⟨some (kind, rawMessage), relay, signature.map Prod.fst, signature.map Prod.snd⟩ := by
  have hname : ∀ p ∈ fields kind rawMessage relay signature, '&' ∉ p.1.toList := by
    cases kind <;> cases relay <;> cases signature <;> simp [fields, Kind.param]
  have hpieces : split (queryText (fields kind rawMessage relay signature)) '&' =
      (fields kind rawMessage relay signature).map field := by
    refine split_intercalate (by simp [fields]) fun s hs => ?_
    obtain ⟨p, hp, rfl⟩ := List.mem_map.mp hs
    have hp1 := hname p hp
    have hp2 := hplain p hp
    simp [field, hp1, hp2]
  have hkept : ((fields kind rawMessage relay signature).map field).filter (· ≠ "") =
      (fields kind rawMessage relay signature).map field := by
    rw [List.filter_eq_self]
    intro s hs
    obtain ⟨p, -, rfl⟩ := List.mem_map.mp hs
    exact decide_eq_true (field_ne_empty p)
  have hsplit : split (own ++ "&" ++ queryText (fields kind rawMessage relay signature)) '&' =
      split own '&' ++ (fields kind rawMessage relay signature).map field := by
    rw [← hpieces]
    exact split_append own _ '&'
  rw [readSlots, hsplit, List.filter_append, hkept, List.foldlM_append,
    readAll_of_notMem fun pair hpair => hown pair (List.mem_of_mem_filter hpair)]
  exact readAll_fields ..

lemma readSlots_empty_append (query : String) : readSlots ("" ++ "&" ++ query) = readSlots query := by
  have hsplit : split ("" ++ "&" ++ query) '&' = "" :: split query '&' := split_append "" query '&'
  rw [readSlots, hsplit, List.filter_cons_of_neg (by simp), readSlots]

/-! ## The round trip -/

section RoundTrip

variable {D : Deflate} {endpoint xml url : String} {kind : Kind} {relay : Option String}
  {signer : Option Signer}

lemma queryOf_of_notMem (h : '#' ∉ url.toList) :
    queryOf url = ((splitOnce url '?').map Prod.snd).getD "" := by
  have hkept : url.toList.takeWhile (· != '#') = url.toList := by
    rw [List.takeWhile_eq_self_iff]
    intro c hc
    rw [bne_iff_ne]
    rintro rfl
    exact h hc
  rw [queryOf, hkept, String.ofList_toList]

/-- **The query behind an endpoint** is read behind the endpoint's own. -/
lemma readSlots_queryOf (hfragment : '#' ∉ endpoint.toList) (hquery : '#' ∉ query.toList) :
    readSlots (queryOf (endpoint ++ separator endpoint ++ query)) =
      readSlots (queryOf endpoint ++ "&" ++ query) := by
  rw [queryOf_of_notMem hfragment, separator]
  by_cases hmark : '?' ∈ endpoint.toList
  · obtain ⟨before, after, hsplit, hbefore⟩ := List.eq_append_cons_of_mem hmark
    have hendpoint : endpoint = String.ofList before ++ String.singleton '?' ++ String.ofList after := by
      rw [← String.toList_inj, hsplit]
      simp
    have hbefore' : '?' ∉ (String.ofList before).toList := by rwa [String.toList_ofList]
    have hurl : endpoint ++ "&" ++ query =
        String.ofList before ++ String.singleton '?' ++ (String.ofList after ++ "&" ++ query) := by
      rw [hendpoint]
      simp only [String.append_assoc]
    rw [if_pos (List.contains_iff_mem.mpr hmark), queryOf_of_notMem (by simp [hfragment, hquery]), hurl,
      splitOnce_append hbefore', hendpoint, splitOnce_append hbefore']
    rfl
  · have hurl : splitOnce (endpoint ++ "?" ++ query) '?' = some (endpoint, query) := splitOnce_append hmark
    rw [if_neg (by rwa [List.contains_iff_mem]), queryOf_of_notMem (by simp [hfragment, hquery]), hurl,
      splitOnce_of_notMem hmark]
    exact (readSlots_empty_append query).symm

lemma isFormChar_encodeComponent {s : String} (h : c ∈ (encodeComponent s).toList) :
    FormUrlencoded.isFormChar c = true := by
  rw [encodeComponent, String.toList_ofList] at h
  exact FormUrlencoded.isFormChar_byteSerialize h

lemma notMem_encodeComponent {s : String} (hc : FormUrlencoded.isFormChar c = false) :
    c ∉ (encodeComponent s).toList := by
  intro h
  rw [isFormChar_encodeComponent h] at hc
  cases hc

@[simp] lemma decodeComponent_encodeComponent (s : String) :
    decodeComponent D (encodeComponent s) = s := by
  have hparse := FormUrlencoded.parse_field D.replaced "x" (encodeComponent s) (by simp)
    (notMem_encodeComponent (by decide))
  have htext : ("x=" : String) = "x" ++ "=" := rfl
  rw [decodeComponent, htext, hparse]
  show FormUrlencoded.decodeText D.replaced (encodeComponent s).toList = s
  rw [encodeComponent, String.toList_ofList, FormUrlencoded.decodeText_byteSerialize]

lemma queryText_unsigned (rawMessage : String) (raw : Option String) :
    kind.param ++ "=" ++ rawMessage ++ (raw.elim "" fun r => "&RelayState=" ++ r) =
      queryText (fields kind rawMessage raw none) := by
  rw [← String.toList_inj]
  cases raw <;> simp [queryText, fields, field]

lemma queryText_signed (rawMessage : String) (raw : Option String) (sigAlg value : String) :
    signedText kind rawMessage raw sigAlg ++ "&Signature=" ++ value =
      queryText (fields kind rawMessage raw (some (sigAlg, value))) := by
  rw [← String.toList_inj]
  cases raw <;> simp [signedText, queryText, fields, field]

/-- What `to_redirect` signs, and the parameters of the signature. -/
def Signs (kind : Kind) (rawMessage : String) (raw : Option String) :
    Option Signer → Option (String × String) → Prop
  | none, signature => signature = none
  | some signer, signature => ∃ value,
      signer.sign (utf8 (signedText kind rawMessage raw (encodeComponent signer.alg.uri))) = .ok value ∧
        signature = some (encodeComponent signer.alg.uri, encodeComponent (base64Encode value))

lemma withRelay_eq (query : String) :
    withRelay query relay = query ++ ((relay.map encodeComponent).elim "" fun r => "&RelayState=" ++ r) := by
  cases relay with
  | none => simp [withRelay]
  | some r => simp [withRelay, String.append_assoc]

/-- **What `to_redirect` sends.** -/
lemma toRedirect_eq_ok (h : toRedirect D endpoint kind xml relay signer = .ok url) :
    ∃ compressed signature, D.deflate (utf8 xml) = some compressed ∧
      Signs kind (encodeComponent (base64Encode compressed)) (relay.map encodeComponent) signer signature ∧
      url = endpoint ++ separator endpoint ++ queryText (fields kind
        (encodeComponent (base64Encode compressed)) (relay.map encodeComponent) signature) := by
  obtain ⟨compressed, hdeflate, h⟩ := bind_eq_ok.mp h
  rw [orError_eq_ok] at hdeflate
  obtain ⟨query, hquery, h⟩ := bind_eq_ok.mp h
  cases h
  rw [withRelay_eq] at hquery
  cases signer with
  | none =>
      cases hquery
      exact ⟨compressed, none, hdeflate, rfl, by rw [queryText_unsigned]⟩
  | some signer =>
      obtain ⟨value, hvalue, hquery⟩ := bind_eq_ok.mp hquery
      cases hquery
      exact ⟨compressed, _, hdeflate, ⟨value, hvalue, rfl⟩, by rw [← queryText_signed]; rfl⟩

lemma fields_encoded
    (h : Signs kind (encodeComponent (base64Encode compressed)) (relay.map encodeComponent) signer signature) :
    ∀ p ∈ fields kind (encodeComponent (base64Encode compressed)) (relay.map encodeComponent) signature,
      ∃ s, p.2 = encodeComponent s := by
  intro p hp
  rw [fields, List.mem_cons, List.mem_append, Option.mem_toList, Option.map_map,
    Option.map_eq_some_iff] at hp
  rcases hp with rfl | ⟨r, -, rfl⟩ | hp
  · exact ⟨_, rfl⟩
  · exact ⟨r, rfl⟩
  · cases signer with
    | none =>
        rw [h] at hp
        cases hp
    | some signer =>
        obtain ⟨value, -, rfl⟩ := h
        rw [Option.elim_some, List.mem_cons, List.mem_singleton] at hp
        rcases hp with rfl | rfl <;> exact ⟨_, rfl⟩

lemma hash_notMem_queryText {raw : Option String}
    (h : ∀ p ∈ fields kind rawMessage raw signature, '#' ∉ p.2.toList) :
    '#' ∉ (queryText (fields kind rawMessage raw signature)).toList := by
  cases kind <;> cases raw <;> cases signature <;> simp_all [queryText, fields, field, Kind.param]

/-- The sizes that `from_redirect` lets through: the text, its encoding and the `RelayState`. -/
structure WithinLimits (D : Deflate) (xml : String) (relay : Option String) : Prop where
  text : xml.utf8ByteSize ≤ MAX_DOCUMENT_BYTES
  encoded : ∀ compressed ∈ D.deflate (utf8 xml),
    (encodeComponent (base64Encode compressed)).utf8ByteSize ≤ MAX_DOCUMENT_BYTES
  relayState : ∀ r ∈ relay, r.utf8ByteSize ≤ MAX_RELAY_STATE

/-- What the decoder reads of what the encoder wrote. -/
def Inverts (D : Deflate) (xml : String) : Prop :=
  ∀ compressed n, D.deflate (utf8 xml) = some compressed → D.inflate n compressed = some ((utf8 xml).take n)

/-- The signature that is read is the one in the URL, over the octets in front of it. -/
def SignedAs (endpoint url : String) : Option Signer → Option RedirectSignature → Prop
  | none, signature => signature = none
  | some signer, signature => ∃ octets value, signer.sign (utf8 octets) = .ok value ∧
      url = endpoint ++ separator endpoint ++ octets ++ "&Signature=" ++
        encodeComponent (base64Encode value) ∧
      signature = some ⟨signer.alg, value, octets⟩

lemma inflate_eq (hinverts : Inverts D xml) (hdeflate : D.deflate (utf8 xml) = some compressed) :
    inflate D compressed = if xml.utf8ByteSize ≤ MAX_DOCUMENT_BYTES then .ok xml
      else .error (.malformed "the message is too large") := by
  rw [inflate, hinverts compressed _ hdeflate, orError]
  split_ifs with hsize
  · have hall : (utf8 xml).take (MAX_DOCUMENT_BYTES + 1) = utf8 xml :=
      List.take_of_length_le (by rw [Utf8.length_utf8]; omega)
    have hfits : (utf8 xml).length ≤ MAX_DOCUMENT_BYTES := by rwa [Utf8.length_utf8]
    rw [hall, bind_eq_ok]
    exact ⟨utf8 xml, rfl, by
      rw [decide_eq_true hfits, Utf8.fromUtf8_utf8]; rfl⟩
  · have hlong : ¬ ((utf8 xml).take (MAX_DOCUMENT_BYTES + 1)).length ≤ MAX_DOCUMENT_BYTES := by
      rw [List.length_take, Utf8.length_utf8]
      omega
    show (do
      require (SamlError.malformed "the message is too large") (decide (_ ≤ MAX_DOCUMENT_BYTES))
      orError _ _) = _
    rw [decide_eq_false hlong]
    rfl

/-- **A message is read as it was sent**, up to the limits on its size. -/
lemma readMessage_encoded (hinverts : Inverts D xml)
    (hdeflate : D.deflate (utf8 xml) = some compressed) :
    readMessage D (encodeComponent (base64Encode compressed)) =
      if (encodeComponent (base64Encode compressed)).utf8ByteSize ≤ MAX_DOCUMENT_BYTES ∧
        xml.utf8ByteSize ≤ MAX_DOCUMENT_BYTES then .ok xml
      else .error (.malformed "the message is too large") := by
  rw [readMessage, decodeComponent_encodeComponent, base64Content_base64Encode]
  by_cases hencoded : (encodeComponent (base64Encode compressed)).utf8ByteSize ≤ MAX_DOCUMENT_BYTES
  · simp only [hencoded, true_and, ← inflate_eq hinverts hdeflate]
    rfl
  · rw [if_neg fun h => hencoded h.1, decide_eq_false hencoded]
    rfl

lemma readSignature_encoded
    (hrelay : s.relay = relay.map encodeComponent) (halg : s.sigAlg = signature.map Prod.fst)
    (hvalue : s.signature = signature.map Prod.snd)
    (hsigns : Signs kind (encodeComponent (base64Encode compressed)) (relay.map encodeComponent) signer
      signature) (hurl : url = endpoint ++ separator endpoint ++ queryText (fields kind
      (encodeComponent (base64Encode compressed)) (relay.map encodeComponent) signature)) :
    ∃ read, readSignature D kind (encodeComponent (base64Encode compressed)) s = .ok read ∧
      SignedAs endpoint url signer read := by
  cases signer with
  | none =>
      rw [Signs] at hsigns
      subst hsigns
      exact ⟨none, by rw [readSignature, halg, hvalue]; rfl, rfl⟩
  | some signer =>
      obtain ⟨value, hsign, rfl⟩ := hsigns
      refine ⟨some ⟨signer.alg, value, signedText kind (encodeComponent (base64Encode compressed))
        (relay.map encodeComponent) (encodeComponent signer.alg.uri)⟩, ?_, _, value, hsign, ?_, rfl⟩
      · rw [readSignature, halg, hvalue, hrelay, Option.map_some, Option.map_some]
        refine bind_eq_ok.mpr ⟨signer.alg, ?_, bind_eq_ok.mpr ⟨value, ?_, rfl⟩⟩
        · rw [decodeComponent_encodeComponent, SignatureAlg.fromUri_uri]
        · rw [decodeComponent_encodeComponent, base64Content_base64Encode]
      · rw [hurl, ← queryText_signed]
        simp only [String.append_assoc]

lemma relayState_encoded : relayState ((relay.map encodeComponent).map (decodeComponent D)) =
    if ∀ r ∈ relay, r.utf8ByteSize ≤ MAX_RELAY_STATE then .ok (relay.filter (· ≠ ""))
    else .error (.malformed "RelayState is too long") := by
  cases relay with
  | none => simp [relayState]
  | some r =>
      rw [Option.map_some, Option.map_some, decodeComponent_encodeComponent, relayState]
      by_cases hlong : MAX_RELAY_STATE < r.utf8ByteSize
      · rw [if_pos hlong, if_neg fun h => absurd (h r rfl) (by omega)]
      · rw [if_neg hlong, if_pos fun r' hr' => by cases hr'; omega]
        by_cases hempty : r = ""
        · simp [hempty, Option.filter]
        · simp [hempty, Option.filter]

lemma fromRedirect_of_slots {query rawMessage : String} {read : Option RedirectSignature}
    (hslots : readSlots query = .ok s) (hmessage : s.message = some (kind, rawMessage))
    (hread : readSignature D kind rawMessage s = .ok read) :
    fromRedirect D query = (do
      let xml ← readMessage D rawMessage
      let relay ← relayState (s.relay.map (decodeComponent D))
      .ok ⟨kind, xml, relay, read⟩) := by
  simp only [fromRedirect, hslots, hmessage, orError, bind, Except.bind]
  cases readMessage D rawMessage with
  | error e => rfl
  | ok xml => simp only [hread]

/-- **What is sent is read as it was sent**: the same kind and text, the same `RelayState` (an empty one as
none), and a signature over the octets that were signed.  What is refused is refused for its size. -/
lemma fromRedirect_toRedirect (hinverts : Inverts D xml) (hfragment : '#' ∉ endpoint.toList)
    (hown : ∀ pair ∈ split (queryOf endpoint) '&', (nameValue pair).1 ∉ SAML_PARAMS)
    (hurl : toRedirect D endpoint kind xml relay signer = .ok url) :
    (WithinLimits D xml relay → ∃ signature,
      fromRedirect D (queryOf url) = .ok ⟨kind, xml, relay.filter (· ≠ ""), signature⟩ ∧
        SignedAs endpoint url signer signature) ∧
    (¬ WithinLimits D xml relay →
      fromRedirect D (queryOf url) = .error (.malformed "the message is too large") ∨
        fromRedirect D (queryOf url) = .error (.malformed "RelayState is too long")) := by
  obtain ⟨compressed, signature, hdeflate, hsigns, hsent⟩ := toRedirect_eq_ok hurl
  have hencoded := fields_encoded hsigns
  have hplain : ∀ p ∈ fields kind (encodeComponent (base64Encode compressed)) (relay.map encodeComponent)
      signature, '&' ∉ p.2.toList ∧ '#' ∉ p.2.toList := by
    intro p hp
    obtain ⟨s, hs⟩ := hencoded p hp
    rw [hs]
    exact ⟨notMem_encodeComponent (by decide), notMem_encodeComponent (by decide)⟩
  have hslots := (readSlots_queryOf hfragment
    (hash_notMem_queryText fun p hp => (hplain p hp).2)).trans
      (readSlots_append (fun p hp => (hplain p hp).1) hown)
  rw [← hsent] at hslots
  obtain ⟨read, hread, hsigned⟩ := readSignature_encoded (D := D)
    (s := ⟨some (kind, encodeComponent (base64Encode compressed)), relay.map encodeComponent,
      signature.map Prod.fst, signature.map Prod.snd⟩) rfl rfl rfl hsigns hsent
  rw [fromRedirect_of_slots hslots rfl hread, readMessage_encoded hinverts hdeflate, relayState_encoded]
  have hlimits : WithinLimits D xml relay ↔
      ((encodeComponent (base64Encode compressed)).utf8ByteSize ≤ MAX_DOCUMENT_BYTES ∧
        xml.utf8ByteSize ≤ MAX_DOCUMENT_BYTES) ∧ ∀ r ∈ relay, r.utf8ByteSize ≤ MAX_RELAY_STATE := by
    constructor
    · exact fun h => ⟨⟨h.encoded compressed hdeflate, h.text⟩, h.relayState⟩
    · rintro ⟨⟨hmessage, htext⟩, hrelay⟩
      refine ⟨htext, fun c hc => ?_, hrelay⟩
      rw [Option.mem_def, hdeflate, Option.some.injEq] at hc
      rwa [← hc]
  rw [hlimits]
  constructor
  · rintro ⟨hmessage, hrelay⟩
    rw [if_pos hmessage, if_pos hrelay]
    exact ⟨read, rfl, hsigned⟩
  · intro hlong
    by_cases hmessage : (encodeComponent (base64Encode compressed)).utf8ByteSize ≤ MAX_DOCUMENT_BYTES ∧
        xml.utf8ByteSize ≤ MAX_DOCUMENT_BYTES
    · right
      rw [if_pos hmessage, if_neg fun hrelay => hlong ⟨hmessage, hrelay⟩]
      rfl
    · left
      rw [if_neg hmessage]
      rfl

end RoundTrip

/-! ## What the signature covers -/

/-- No raw value has a `&` in it. -/
structure Slots.Plain (s : Slots) : Prop where
  message : ∀ m ∈ s.message, '&' ∉ m.2.toList
  relay : ∀ r ∈ s.relay, '&' ∉ r.toList
  sigAlg : ∀ a ∈ s.sigAlg, '&' ∉ a.toList

lemma Slots.Plain.put {s s' : Slots} (h : s.Plain) (hvalue : '&' ∉ value.toList)
    (hput : s.put name value = .ok s') : s'.Plain := by
  unfold Slots.put at hput
  split_ifs at hput <;> cases hput
  · exact ⟨by simpa using hvalue, h.relay, h.sigAlg⟩
  · exact ⟨by simpa using hvalue, h.relay, h.sigAlg⟩
  · exact ⟨h.message, by simpa using hvalue, h.sigAlg⟩
  · exact ⟨h.message, h.relay, by simpa using hvalue⟩
  · exact ⟨h.message, h.relay, h.sigAlg⟩
  · exact h

lemma notMem_nameValue {pair : String} (h : c ∉ pair.toList) :
    c ∉ (nameValue pair).2.toList := by
  rw [nameValue, splitOnce]
  cases hrest : pair.toList.dropWhile (· != '=') with
  | nil => simp
  | cons d rest =>
      intro hc
      have hmem : c ∈ pair.toList.dropWhile (· != '=') := by
        rw [hrest]
        exact List.mem_cons_of_mem _ (by simpa using hc)
      exact h ((List.dropWhile_suffix _).mem hmem)

/-- **Raw values are plain**, since the query was cut at every `&`. -/
lemma plain_readSlots (h : readSlots query = .ok s) : s.Plain := by
  have hpairs : ∀ pair ∈ (split query '&').filter (· ≠ ""), '&' ∉ pair.toList := by
    intro pair hpair
    obtain ⟨piece, hpiece, rfl⟩ := List.mem_map.mp (List.mem_of_mem_filter hpair)
    rw [String.toList_ofList]
    exact notMem_of_mem_splitOn hpiece
  have hstart : Slots.Plain {} := ⟨by simp, by simp, by simp⟩
  rw [readSlots] at h
  generalize (split query '&').filter (· ≠ "") = pairs at h hpairs
  generalize ({} : Slots) = start at h hstart
  induction pairs generalizing start with
  | nil =>
      cases h
      exact hstart
  | cons pair pairs ih =>
      rw [List.forall_mem_cons] at hpairs
      rw [List.foldlM_cons] at h
      obtain ⟨next, hput, h⟩ := bind_eq_ok.mp h
      exact ih hpairs.2 next h (hstart.put (notMem_nameValue hpairs.1) hput)

/-- **There is one way to read signed octets.** -/
lemma signedText_inj {k k' : Kind} {m m' a a' : String} {r r' : Option String}
    (hm : '&' ∉ m.toList) (hm' : '&' ∉ m'.toList) (hr : ∀ v ∈ r, '&' ∉ v.toList)
    (hr' : ∀ v ∈ r', '&' ∉ v.toList) (ha : '&' ∉ a.toList) (ha' : '&' ∉ a'.toList)
    (h : signedText k m r a = signedText k' m' r' a') : k = k' ∧ m = m' ∧ r = r' := by
  have hpieces : ∀ (k : Kind) (m a : String) (r : Option String), '&' ∉ m.toList →
      (∀ v ∈ r, '&' ∉ v.toList) → '&' ∉ a.toList → split (signedText k m r a) '&' =
        field (k.param, m) :: ((r.map fun v => field ("RelayState", v)).toList ++ [field ("SigAlg", a)]) := by
    intro k m a r hm hr ha
    have htext : signedText k m r a = String.intercalate (String.singleton '&')
        (field (k.param, m) :: ((r.map fun v => field ("RelayState", v)).toList ++ [field ("SigAlg", a)])) := by
      rw [← String.toList_inj]
      cases r <;> simp [signedText, field]
    rw [htext]
    refine split_intercalate (List.cons_ne_nil _ _) ?_
    cases k <;> cases r <;> simp_all [field, Kind.param]
  have hsplit := congrArg (split · '&') h
  simp only [hpieces k m a r hm hr ha, hpieces k' m' a' r' hm' hr' ha', List.cons.injEq] at hsplit
  obtain ⟨hmessage, hrest⟩ := hsplit
  have hname : ∀ k : Kind, '=' ∉ k.param.toList := fun k => by cases k <;> decide
  have hfirst := congrArg nameValue hmessage
  rw [nameValue_field (hname k), nameValue_field (hname k'), Prod.mk.injEq] at hfirst
  obtain ⟨hkind, hm⟩ := hfirst
  refine ⟨?_, hm, ?_⟩
  · cases k <;> cases k' <;> first | rfl | exact absurd hkind (by decide)
  · cases r with
    | none =>
        cases r' with
        | none => rfl
        | some v' => simp at hrest
    | some v =>
        cases r' with
        | none => simp at hrest
        | some v' =>
            simp only [Option.map_some, Option.toList_some, List.cons_append, List.cons.injEq] at hrest
            have hrelay : '=' ∉ ("RelayState" : String).toList := by decide
            have hvalue := congrArg nameValue hrest.1
            rw [nameValue_field (p := (_, v)) hrelay, nameValue_field (p := (_, v')) hrelay,
              Prod.mk.injEq] at hvalue
            rw [hvalue.2]

/-- **What was read of a signed query** is read of what was signed. -/
lemma fromRedirect_signed {D : Deflate} {r : Received} {signature : RedirectSignature}
    (h : fromRedirect D query = .ok r) (hsigned : r.signature = some signature) :
    ∃ rawMessage raw sigAlg, '&' ∉ rawMessage.toList ∧ (∀ v ∈ raw, '&' ∉ v.toList) ∧
      '&' ∉ sigAlg.toList ∧ signature.signed = signedText r.kind rawMessage raw sigAlg ∧
      readMessage D rawMessage = .ok r.xml ∧
      relayState (raw.map (decodeComponent D)) = .ok r.relayState := by
  obtain ⟨s, hslots, h⟩ := bind_eq_ok.mp h
  obtain ⟨⟨kind, rawMessage⟩, hmessage, h⟩ := bind_eq_ok.mp h
  obtain ⟨xml, hxml, h⟩ := bind_eq_ok.mp h
  obtain ⟨read, hread, h⟩ := bind_eq_ok.mp h
  obtain ⟨relay, hrelay, h⟩ := bind_eq_ok.mp h
  cases h
  rw [orError_eq_ok] at hmessage
  have hplain := plain_readSlots hslots
  rw [readSignature] at hread
  cases halg : s.sigAlg with
  | none =>
      cases hvalue : s.signature with
      | none =>
          rw [halg, hvalue] at hread
          cases hread
          cases hsigned
      | some v =>
          rw [halg, hvalue] at hread
          cases hread
  | some a =>
      cases hvalue : s.signature with
      | none =>
          rw [halg, hvalue] at hread
          cases hread
      | some v =>
          rw [halg, hvalue] at hread
          obtain ⟨alg, -, hread⟩ := bind_eq_ok.mp hread
          obtain ⟨value, -, hread⟩ := bind_eq_ok.mp hread
          cases hread
          cases hsigned
          exact ⟨rawMessage, s.relay, a, hplain.message _ hmessage, hplain.relay, hplain.sigAlg a halg, rfl,
            hxml, hrelay⟩

/-- **The Redirect binding.**  A message that is sent is read as it was sent, with the octets that were
signed, unless it is beyond the limits on its size; and of two queries that are read with a signature, the
signed octets alone decide what kind, text and `RelayState` are read. -/
theorem redirect_round_trips (D : Deflate) :
    (∀ endpoint kind xml relay signer url, Inverts D xml → '#' ∉ endpoint.toList →
      (∀ pair ∈ split (queryOf endpoint) '&', (nameValue pair).1 ∉ SAML_PARAMS) →
      toRedirect D endpoint kind xml relay signer = .ok url →
        (WithinLimits D xml relay → ∃ signature,
          fromRedirect D (queryOf url) = .ok ⟨kind, xml, relay.filter (· ≠ ""), signature⟩ ∧
            SignedAs endpoint url signer signature) ∧
        (¬ WithinLimits D xml relay →
          fromRedirect D (queryOf url) = .error (.malformed "the message is too large") ∨
            fromRedirect D (queryOf url) = .error (.malformed "RelayState is too long"))) ∧
    ∀ query query' r r' signature signature', fromRedirect D query = .ok r →
      fromRedirect D query' = .ok r' → r.signature = some signature → r'.signature = some signature' →
      signature.signed = signature'.signed →
        r.kind = r'.kind ∧ r.xml = r'.xml ∧ r.relayState = r'.relayState := by
  refine ⟨fun _ _ _ _ _ _ => fromRedirect_toRedirect, ?_⟩
  intro query query' r r' signature signature' h h' hsigned hsigned' hsame
  obtain ⟨m, v, a, hm, hv, ha, htext, hxml, hrelay⟩ := fromRedirect_signed h hsigned
  obtain ⟨m', v', a', hm', hv', ha', htext', hxml', hrelay'⟩ := fromRedirect_signed h' hsigned'
  rw [htext, htext'] at hsame
  obtain ⟨hkind, rfl, rfl⟩ := signedText_inj hm hm' hv hv' ha ha' hsame
  rw [hxml] at hxml'
  rw [hrelay] at hrelay'
  exact ⟨hkind, Except.ok.inj hxml', Except.ok.inj hrelay'⟩

def deflated : List UInt8 := [178, 73, 212, 183, 3, 0, 0, 0, 255, 255, 3, 0]

def deflateOne : Deflate where
  deflate bytes := if bytes = utf8 "<a/>" then some deflated else none
  inflate n compressed := if compressed = deflated then some ((utf8 "<a/>").take n) else none
  replaced _ := "\uFFFD"

lemma deflate_deflateOne : deflateOne.deflate (utf8 "<a/>") = some deflated := by
  simp [deflateOne]

lemma inverts_deflateOne : Inverts deflateOne "<a/>" := by
  intro compressed n h
  rw [deflate_deflateOne, Option.some.injEq] at h
  rw [← h]
  simp [deflateOne]

/-- A signed request, to an endpoint with a query of its own. -/
theorem redirect_round_trips_request : ∃ url signature,
    toRedirect deflateOne "https://sp.example/slo?x=1" .request "<a/>" (some "state/1")
      (some ⟨"", fun octets => .ok (octets.take 3)⟩) = .ok url ∧
    fromRedirect deflateOne (queryOf url) = .ok ⟨.request, "<a/>", some "state/1", signature⟩ := by
  have hsent : ∃ url, toRedirect deflateOne "https://sp.example/slo?x=1" .request "<a/>" (some "state/1")
      (some ⟨"", fun octets => .ok (octets.take 3)⟩) = .ok url :=
    ⟨_, bind_eq_ok.mpr ⟨_, orError_eq_ok.mpr deflate_deflateOne, rfl⟩⟩
  obtain ⟨url, hurl⟩ := hsent
  have hlimits : WithinLimits deflateOne "<a/>" (some "state/1") := by
    refine ⟨by decide, ?_, by simp +decide⟩
    intro compressed h
    rw [Option.mem_def, deflate_deflateOne, Option.some.injEq] at h
    rw [← h]
    decide
  obtain ⟨signature, hread, -⟩ := ((redirect_round_trips deflateOne).1 _ _ _ _ _ _ inverts_deflateOne
    (by decide) (by decide) hurl).1 hlimits
  exact ⟨url, signature, hurl, hread⟩

end Ridm.Saml
