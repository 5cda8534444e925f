import Ridm.Lib.Base64
import Ridm.Saml.Response

/-!
# Signature algorithms and signers

`SignatureAlg` of `api/src/saml/cert.rs`, the `Signer` of `api/src/saml/dsig.rs` and the base64 reading of
`api/src/saml/xml.rs`: what the two ways of signing a SAML message share, the query of the Redirect
binding and the enveloped signature.  The RSA key is a parameter, by what it makes of the signed octets.
-/

namespace Ridm.Saml

/-- The signature algorithms. -/
inductive SignatureAlg
  | rsaSha256
  | rsaSha384
  | rsaSha512
  | ecdsaSha256
  | ecdsaSha384

/-- `ns::alg::RSA_SHA1`. -/
def RSA_SHA1 : String := "http://www.w3.org/2000/09/xmldsig#rsa-sha1"

namespace SignatureAlg

/-- `SignatureAlg::uri`. -/
def uri : SignatureAlg → String
  | rsaSha256 => "http://www.w3.org/2001/04/xmldsig-more#rsa-sha256"
  | rsaSha384 => "http://www.w3.org/2001/04/xmldsig-more#rsa-sha384"
  | rsaSha512 => "http://www.w3.org/2001/04/xmldsig-more#rsa-sha512"
  | ecdsaSha256 => "http://www.w3.org/2001/04/xmldsig-more#ecdsa-sha256"
  | ecdsaSha384 => "http://www.w3.org/2001/04/xmldsig-more#ecdsa-sha384"

/-- `SignatureAlg::from_uri`. -/
def fromUri (s : String) : Except SamlError SignatureAlg :=
  if s = uri rsaSha256 then .ok rsaSha256
  else if s = uri rsaSha384 then .ok rsaSha384
  else if s = uri rsaSha512 then .ok rsaSha512
  else if s = uri ecdsaSha256 then .ok ecdsaSha256
  else if s = uri ecdsaSha384 then .ok ecdsaSha384
  else if s = RSA_SHA1 then .error (.signature "SHA-1 signatures are not accepted")
  else .error (.signature "unsupported signature algorithm")

@[simp] lemma fromUri_uri (a : SignatureAlg) : fromUri a.uri = .ok a := by
  cases a <;> rfl

end SignatureAlg

/-- `Signer`: its certificate in base64, and the RSA signature of some octets. -/
structure Signer where
  certB64 : String
  sign : List UInt8 → Except SamlError (List UInt8)

/-- `Signer::alg`. -/
def Signer.alg (_ : Signer) : SignatureAlg := .rsaSha256

/-- `char::is_ascii_whitespace`. -/
def isAsciiWhitespace (c : Char) : Bool :=
  c == ' ' || c == '\t' || c == '\n' || c.toNat == 12 || c == '\r'

/-- `STANDARD.encode`. -/
def base64Encode (bytes : List UInt8) : String := String.ofList (Base64.encode bytes)

def base64Content (s : String) : Except SamlError (List UInt8) :=
  orError (.malformed "invalid base64 content")
    (Base64.decode (s.toList.filter fun c => !isAsciiWhitespace c))

lemma not_isAsciiWhitespace_of_isBase64Char {c : Char} (h : Base64.isBase64Char c = true) :
    isAsciiWhitespace c = false := by
  have hall : ∀ n < 33, isAsciiWhitespace (Char.ofNat n) = true →
      Base64.isBase64Char (Char.ofNat n) = false := by decide
  by_contra hws
  rw [Bool.not_eq_false] at hws
  have hlow : c.toNat < 33 := by
    simp only [isAsciiWhitespace, Bool.or_eq_true, beq_iff_eq] at hws
    rcases hws with (((rfl | rfl) | rfl) | h12) | rfl
    · decide
    · decide
    · decide
    · omega
    · decide
  have hno := hall c.toNat hlow
  rw [Char.ofNat_toNat] at hno
  rw [hno hws] at h
  cases h

lemma base64Content_base64Encode (bytes : List UInt8) : base64Content (base64Encode bytes) = .ok bytes := by
  have hkept : ((base64Encode bytes).toList.filter fun c => !isAsciiWhitespace c) = Base64.encode bytes := by
    rw [base64Encode, String.toList_ofList, List.filter_eq_self]
    intro c hc
    rw [not_isAsciiWhitespace_of_isBase64Char (Base64.isBase64Char_encode c hc), Bool.not_false]
  rw [base64Content, hkept, Base64.decode_encode]
  rfl

end Ridm.Saml
