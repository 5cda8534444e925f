import Ridm.Kerberos.Der
import Ridm.Lib.BigEndian
import Ridm.Lib.FrontReader

/-!
# Negotiate tokens

`api/src/kerberos/spnego.rs`: SPNEGO around a Kerberos GSS-API token, or a bare Kerberos token, with the
encoder of `api/src/kerberos/der.rs` (`tlv`).

What `tlv` writes is one item to the reader, whatever follows it, as long as its length takes at most three
bytes (`reads_tlv`); a longer one is refused (`item_long`).  The nested layers are then read one by one, and
only the outermost length matters, the inner ones being less.
-/

namespace Ridm.Kerberos

def OID : UInt8 := 0x06

def ENUMERATED : UInt8 := 0x0a

/-- `Reader::optional`. -/
def optionalItem (tag : UInt8) : Reader (Option (List UInt8)) := do
  if (← get).head? = some tag then some <$> expect tag else pure none

/-- The length of `tlv`: in one byte below 128, and else behind the number of its bytes, leading zeros left
out. -/
def lengthBytes (len : ℕ) : List UInt8 :=
  if len < 0x80 then [UInt8.ofNat len]
  else
    let bytes := (BigEndian.ofNat 8 len).dropWhile (· == 0)
    (0x80 ||| UInt8.ofNat bytes.length) :: bytes

def tlv (tag : UInt8) (content : List UInt8) : List UInt8 := tag :: (lengthBytes content.length ++ content)

def encExplicit (n : UInt8) (inner : List UInt8) : List UInt8 := tlv (ctx n) inner

/-! ## Items -/

open FrontReader (Reads)

variable {tag : UInt8} {content rest : List UInt8} {len : ℕ}

lemma le_length_tlv (tag : UInt8) (content : List UInt8) : content.length ≤ (tlv tag content).length := by
  rw [tlv, List.length_cons, List.length_append]
  omega

lemma toNat_dropWhile (bytes : List UInt8) :
    BigEndian.toNat (bytes.dropWhile (· == 0)) = BigEndian.toNat bytes := by
  induction bytes with
  | nil => rfl
  | cons b bytes ih =>
      by_cases hb : b = 0
      · rw [List.dropWhile_cons_of_pos (by simp [hb]), ih, BigEndian.toNat_cons, hb]
        simp
      · rw [List.dropWhile_cons_of_neg (by simp [hb])]

lemma length_dropWhile_le {bytes : List UInt8} {k : ℕ} (h : BigEndian.toNat bytes < 256 ^ k) :
    (bytes.dropWhile (· == 0)).length ≤ k := by
  rw [← toNat_dropWhile] at h
  cases hbytes : bytes.dropWhile (· == 0) with
  | nil => exact Nat.zero_le k
  | cons b rest =>
      have hb : b ≠ 0 := by
        have hhead := List.head_dropWhile_not (p := (· == (0 : UInt8))) (by rw [hbytes]; simp)
        simpa [hbytes] using hhead
      rw [hbytes, BigEndian.toNat_cons] at h
      have hpos : 0 < b.toNat := Nat.pos_of_ne_zero fun h0 => hb (UInt8.toNat_inj.mp h0)
      by_contra hlt
      have hle : 256 ^ k ≤ 256 ^ rest.length := 
        Nat.pow_le_pow_right (by decide) (Nat.le_of_lt_succ (by simpa using hlt))
      have hmul : 256 ^ rest.length ≤ b.toNat * 256 ^ rest.length := Nat.le_mul_of_pos_left _ hpos
      omega

lemma lengthByte_parts : ∀ k < 9,
    ¬ (0x80 ||| UInt8.ofNat k : UInt8) < 0x80 ∧ ((0x80 ||| UInt8.ofNat k : UInt8) &&& 0x7f).toNat = k := by
  decide

lemma lengthBytes_long (h : 128 ≤ len) (hmax : len < 2 ^ 64) : ∃ bytes, bytes.length < 9 ∧
    BigEndian.toNat bytes = len ∧ (∀ k, len < 256 ^ k → bytes.length ≤ k) ∧
      lengthBytes len = (0x80 ||| UInt8.ofNat bytes.length) :: bytes := by
  have hnat : BigEndian.toNat (BigEndian.ofNat 8 len) = len := BigEndian.toNat_ofNat_of_lt (by simpa using hmax)
  have hshort : ∀ k, len < 256 ^ k → ((BigEndian.ofNat 8 len).dropWhile (· == 0)).length ≤ k :=
    fun k hk => length_dropWhile_le (by rwa [hnat])
  refine ⟨(BigEndian.ofNat 8 len).dropWhile (· == 0), ?_, ?_, hshort, ?_⟩
  · exact Nat.lt_succ_of_le (hshort 8 (by simpa using hmax))
  · rw [toNat_dropWhile, hnat]
  · rw [lengthBytes, if_neg (Nat.not_lt_of_le h)]

lemma itemLength_lengthBytes (h : len < 2 ^ 24) (rest : List UInt8) :
    itemLength (lengthBytes len ++ rest) = .ok (len, rest) := by
  by_cases hlen : len < 0x80
  · have hbyte : UInt8.ofNat len < 0x80 := by
      rw [UInt8.lt_iff_toNat_lt, UInt8.toNat_ofNat_of_lt' (Nat.lt_trans hlen (by decide))]
      exact hlen
    rw [lengthBytes, if_pos hlen, List.singleton_append, itemLength, if_pos hbyte,
      UInt8.toNat_ofNat_of_lt' (Nat.lt_trans hlen (by decide))]
  · obtain ⟨bytes, hnine, hnat, hshort, hlength⟩ :=
      lengthBytes_long (Nat.le_of_not_lt hlen) (Nat.lt_trans h (by decide))
    obtain ⟨hlong, hcount⟩ := lengthByte_parts bytes.length hnine
    have hthree : bytes.length ≤ 3 := hshort 3 (by simpa using h)
    have hne : bytes.length ≠ 0 := by
      intro hzero
      rw [List.length_eq_zero_iff.mp hzero] at hnat
      exact hlen (by rw [← hnat]; decide)
    have hnot : ¬ (3 < bytes.length ∨ (bytes ++ rest).length < bytes.length) := by
      rw [List.length_append]
      omega
    rw [hlength, List.cons_append, itemLength, if_neg hlong]
    simp only [hcount]
    rw [if_neg hne, if_neg hnot, List.take_left, List.drop_left]
    exact congrArg (fun n => Except.ok (n, rest)) hnat

lemma length_lengthBytes_iff (hmax : len < 2 ^ 64) : (lengthBytes len).length ≤ 4 ↔ len < 2 ^ 24 := by
  by_cases hlen : len < 0x80
  · have hone : (lengthBytes len).length = 1 := by rw [lengthBytes, if_pos hlen, List.length_singleton]
    omega
  · obtain ⟨bytes, -, hnat, hshort, hlength⟩ := lengthBytes_long (Nat.le_of_not_lt hlen) hmax
    rw [hlength, List.length_cons]
    constructor
    · intro hthree
      have hlt := BigEndian.toNat_lt bytes
      have hpow : 256 ^ bytes.length ≤ 256 ^ 3 := Nat.pow_le_pow_right (by decide) (by omega)
      omega
    · intro h
      have hthree : bytes.length ≤ 3 := hshort 3 (by simpa using h)
      omega

/-- **What `tlv` writes is one item**, whatever follows it. -/
theorem reads_item (htag : tag &&& 0x1f ≠ 0x1f) (h : content.length < 2 ^ 24) :
    Reads item (tlv tag content) (tag, content) := by
  intro rest
  have hlength := itemLength_lengthBytes h (content ++ rest)
  have hle : content.length ≤ (content ++ rest).length := by simp
  rw [tlv, List.cons_append, List.append_assoc, item]
  simp only [hlength, bind, Except.bind]
  simp [require, htag]

lemma reads_expect (htag : tag &&& 0x1f ≠ 0x1f) (h : content.length < 2 ^ 24) :
    Reads (expect tag) (tlv tag content) content := by
  have hthen : Reads (if tag = tag then pure content else throw ⟨"unexpected tag"⟩ : Reader (List UInt8)) []
      content := by
    rw [if_pos rfl]
    exact Reads.pure content
  have hread := (reads_item htag h).bind (f := fun r => if r.1 = tag then pure r.2
    else throw ⟨"unexpected tag"⟩) hthen
  rwa [List.append_nil] at hread

lemma single_tlv (htag : tag &&& 0x1f ≠ 0x1f) (h : content.length < 2 ^ 24) :
    single (tlv tag content) tag = .ok content := by
  have hread := reads_expect htag h []
  rw [List.append_nil] at hread
  rw [single, hread]
  rfl

variable {token : Option (List UInt8)} {mech : Mech} {n : UInt8}

lemma reads_explicit (hn : ctx n &&& 0x1f ≠ 0x1f) (htag : tag &&& 0x1f ≠ 0x1f)
    (h : (tlv tag content).length < 2 ^ 24) :
    Reads (explicit n tag) (encExplicit n (tlv tag content)) content := by
  have hcontent : content.length < 2 ^ 24 := Nat.lt_of_le_of_lt (le_length_tlv tag content) h
  have hsingle : Reads (liftM (single (tlv tag content) tag) : Reader (List UInt8)) [] content := by
    rw [single_tlv htag hcontent]
    exact Reads.pure content
  have hread := (reads_expect hn h).bind (f := fun wrapped => liftM (single wrapped tag)) hsingle
  rwa [List.append_nil] at hread

lemma optionalItem_of_ne {l : List UInt8} (h : l.head? ≠ some tag) : optionalItem tag l = .ok (none, l) := by
  show ((if l.head? = some tag then some <$> expect tag else pure none : Reader (Option (List UInt8))) l) = _
  rw [if_neg h]
  rfl

lemma reads_optionalItem (htag : tag &&& 0x1f ≠ 0x1f) (h : content.length < 2 ^ 24) :
    Reads (optionalItem tag) (tlv tag content) (some content) := by
  intro rest
  show ((if (tlv tag content ++ rest).head? = some tag then some <$> expect tag
    else pure none : Reader (Option (List UInt8))) (tlv tag content ++ rest)) = _
  have hhead : (tlv tag content ++ rest).head? = some tag := rfl
  rw [if_pos hhead, map_eq_pure_bind, FrontReader.bind_of_ok (reads_expect htag h rest)]
  rfl

lemma reads_explicitOpt (hn : ctx n &&& 0x1f ≠ 0x1f) (htag : tag &&& 0x1f ≠ 0x1f)
    (h : (tlv tag content).length < 2 ^ 24) :
    Reads (explicitOpt n tag) (encExplicit n (tlv tag content)) (some content) := by
  intro rest
  show ((if (encExplicit n (tlv tag content) ++ rest).head? = some (ctx n) then some <$> explicit n tag
    else pure none : Reader (Option (List UInt8))) (encExplicit n (tlv tag content) ++ rest)) = _
  have hhead : (encExplicit n (tlv tag content) ++ rest).head? = some (ctx n) := rfl
  rw [if_pos hhead, map_eq_pure_bind, FrontReader.bind_of_ok (reads_explicit hn htag h rest)]
  rfl

lemma explicitOpt_nil (n : UInt8) : explicitOpt n tag [] = .ok (none, []) := rfl

/-- **A length of more than three bytes** is refused. -/
lemma item_long (htag : tag &&& 0x1f ≠ 0x1f) (h : 2 ^ 24 ≤ content.length) (hmax : content.length < 2 ^ 64)
    (rest : List UInt8) : item (tlv tag content ++ rest) = .error ⟨"length out of range"⟩ := by
  obtain ⟨bytes, hnine, -, -, hlength⟩ := lengthBytes_long (Nat.le_trans (by decide) h) hmax
  obtain ⟨hlong, hcount⟩ := lengthByte_parts bytes.length hnine
  have hfour : 3 < bytes.length := by
    have hnot := (not_congr (length_lengthBytes_iff hmax)).mpr (Nat.not_lt_of_le h)
    rw [hlength, List.length_cons] at hnot
    omega
  have hrefused : itemLength (lengthBytes content.length ++ (content ++ rest)) =
      .error ⟨"length out of range"⟩ := by
    rw [hlength, List.cons_append, itemLength, if_neg hlong]
    simp only [hcount]
    rw [if_neg (by omega), if_pos (.inl hfour)]
  rw [tlv, List.cons_append, List.append_assoc, item]
  simp only [hrefused, bind, Except.bind]
  simp [require, htag]

namespace Spnego

/-- `OID_SPNEGO`, 1.3.6.1.5.5.2. -/
def OID_SPNEGO : List UInt8 := [0x2b, 0x06, 0x01, 0x05, 0x05, 0x02]

/-- `OID_KRB5`, 1.2.840.113554.1.2.2. -/
def OID_KRB5 : List UInt8 := [0x2a, 0x86, 0x48, 0x86, 0xf7, 0x12, 0x01, 0x02, 0x02]

/-- `OID_MS_KRB5`, 1.2.840.48018.1.2.2. -/
def OID_MS_KRB5 : List UInt8 := [0x2a, 0x86, 0x48, 0x82, 0xf7, 0x12, 0x01, 0x02, 0x02]

/-- `OID_NTLM`, 1.3.6.1.4.1.311.2.2.10. -/
def OID_NTLM : List UInt8 := [0x2b, 0x06, 0x01, 0x04, 0x01, 0x82, 0x37, 0x02, 0x02, 0x0a]

def TOK_AP_REQ : List UInt8 := [0x01, 0x00]

def TOK_AP_REP : List UInt8 := [0x02, 0x00]

/-- The mechanisms that mean Kerberos. -/
inductive Mech
  | krb5
  | msKrb5
  deriving DecidableEq

/-- `Mech::oid`. -/
def Mech.oid : Mech → List UInt8
  | krb5 => OID_KRB5
  | msKrb5 => OID_MS_KRB5

/-- What the browser offered. -/
structure Offer where
  apReq : List UInt8
  mech : Mech
  spnego : Bool

/-- What a token turns out to be. -/
inductive Negotiated
  | kerberos (offer : Offer)
  | ntlm
  | unsupported (why : String)

def mechOf (oid : List UInt8) : Option Mech :=
  if oid = OID_KRB5 then some .krb5
  else if oid = OID_MS_KRB5 then some .msKrb5
  else none

/-- `gss_frame`: the mechanism and the inner token. -/
def gssFrame (token : List UInt8) : Except DerError (List UInt8 × List UInt8) := do
  let content ← single token (app 0)
  expect OID content

/-- What follows a token id (`split_first_chunk` and the comparison). -/
def behindId (id : List UInt8) (e : DerError) (inner : List UInt8) : Except DerError (List UInt8) :=
  if inner.take 2 = id then .ok (inner.drop 2) else .error e

def apReqOf (inner : List UInt8) : Except DerError (List UInt8) := do
  let rest ← behindId TOK_AP_REQ ⟨"not a Kerberos AP-REQ token"⟩ inner
  let _ ← single rest (app 14)
  pure rest

/-- The first mechanism and the optimistic token of a `NegTokenInit`. -/
def negTokenInit : Reader (List UInt8 × Option (List UInt8)) := do
  let mechList ← explicit 0 SEQUENCE
  let first ← liftM ((expect OID).run' mechList)
  let _ ← optionalItem (ctx 1)
  let token ← explicitOpt 2 OCTET_STRING
  pure (first, token)

def parseSpnego (inner : List UInt8) : Except DerError Negotiated := do
  let init ← single inner (ctx 0)
  let body ← single init SEQUENCE
  let (first, token) ← negTokenInit.run' body
  match mechOf first, token with
  | none, _ =>
      pure (if first = OID_NTLM then .ntlm
        else .unsupported "Kerberos is not the browser's first choice")
  | some _, none => pure (.unsupported "no Kerberos token was sent")
  | some mech, some token => do
      let (oid, inner) ← gssFrame token
      if (mechOf oid).isNone then
        pure (.unsupported "the token is not for the mechanism it was offered as")
      else do
        let apReq ← apReqOf inner
        pure (.kerberos ⟨apReq, mech, true⟩)

/-- What a bare NTLM message begins with. -/
def NTLMSSP : List UInt8 := [0x4e, 0x54, 0x4c, 0x4d, 0x53, 0x53, 0x50, 0x00]

def parse (token : List UInt8) : Except DerError Negotiated := do
  if NTLMSSP.isPrefixOf token then pure .ntlm
  else do
    let (oid, inner) ← gssFrame token
    if oid = OID_SPNEGO then parseSpnego inner
    else
      match mechOf oid with
      | some mech => do
          let apReq ← apReqOf inner
          pure (.kerberos ⟨apReq, mech, false⟩)
      | none =>
          pure (if oid = OID_NTLM then .ntlm else .unsupported "the token is not SPNEGO or Kerberos")

/-- A Kerberos GSS-API token: the mechanism, the token id and the message. -/
def krbToken (id message : List UInt8) : List UInt8 := tlv (app 0) (tlv OID OID_KRB5 ++ id ++ message)

def answer (offer : Offer) (apRep : Option (List UInt8)) : Option (List UInt8) :=
  let token := apRep.map (krbToken TOK_AP_REP)
  if !offer.spnego then token
  else
    let fields := [encExplicit 0 (tlv ENUMERATED [0]), encExplicit 1 (tlv OID offer.mech.oid)] ++
      (token.map fun t => encExplicit 2 (tlv OCTET_STRING t)).toList
    some (tlv (ctx 1) (tlv SEQUENCE fields.flatten))

def wrapApReq (apReq : List UInt8) (mech : Mech) (spnego : Bool) : List UInt8 :=
  let krb := krbToken TOK_AP_REQ apReq
  if !spnego then krb
  else
    let mechs := tlv OID mech.oid ++ tlv OID OID_KRB5 ++ tlv OID OID_NTLM
    let init := tlv SEQUENCE
      (encExplicit 0 (tlv SEQUENCE mechs) ++ encExplicit 2 (tlv OCTET_STRING krb))
    tlv (app 0) (tlv OID OID_SPNEGO ++ tlv (ctx 0) init)

/-- The Kerberos token of a `NegTokenResp`. -/
def negTokenResp : Reader (Option (List UInt8)) := do
  let state ← explicit 0 ENUMERATED
  if state ≠ [0] then throw ⟨"negotiation not complete"⟩
  let _ ← optionalItem (ctx 1)
  explicitOpt 2 OCTET_STRING

def apRepOf (krb : List UInt8) : Except DerError (Option (List UInt8)) := do
  let (oid, inner) ← gssFrame krb
  if (mechOf oid).isNone then throw ⟨"not a Kerberos token"⟩
  some <$> behindId TOK_AP_REP ⟨"not an AP-REP token"⟩ inner

def apRepOfAnswer (answer : List UInt8) : Except DerError (Option (List UInt8)) := do
  if answer.head? = some (ctx 1) then do
    let resp ← single answer (ctx 1)
    let body ← single resp SEQUENCE
    match ← negTokenResp.run' body with
    | some krb => apRepOf krb
    | none => pure none
  else apRepOf answer

/-! ## Layers -/

section

variable {apReq message inner oid id : List UInt8} {e : DerError}

lemma gssFrame_tlv (hoid : oid.length < 2 ^ 24) (h : (tlv OID oid ++ inner).length < 2 ^ 24) :
    gssFrame (tlv (app 0) (tlv OID oid ++ inner)) = .ok (oid, inner) := by
  rw [gssFrame, single_tlv (by decide) h]
  exact reads_expect (by decide) hoid inner

lemma behindId_append (hid : id.length = 2) (rest : List UInt8) : behindId id e (id ++ rest) = .ok rest := by
  rw [behindId, ← hid, List.take_left, List.drop_left, if_pos rfl]

lemma apReqOf_append (h : ∃ c, single apReq (app 14) = .ok c) : apReqOf (TOK_AP_REQ ++ apReq) = .ok apReq := by
  obtain ⟨c, hc⟩ := h
  rw [apReqOf, behindId_append rfl]
  show ((single apReq (app 14)).bind fun _ => .ok apReq) = _
  rw [hc]
  rfl

lemma gssFrame_krbToken (h : (tlv OID OID_KRB5 ++ id ++ message).length < 2 ^ 24) :
    gssFrame (krbToken id message) = .ok (OID_KRB5, id ++ message) := by
  rw [krbToken, List.append_assoc]
  rw [List.append_assoc] at h
  exact gssFrame_tlv (by decide) h

lemma ok_bind {α β : Type} (a : α) (f : α → Except DerError β) : (Except.ok a >>= f) = f a := rfl

/-- A token of one item whose length takes at most three bytes. -/
def Short (token : List UInt8) : Prop := ∃ tag content, token = tlv tag content ∧ content.length < 2 ^ 24

lemma Short.content_lt {tag : UInt8} {content : List UInt8} (h : Short (tlv tag content)) :
    content.length < 2 ^ 24 := by
  obtain ⟨tag', content', heq, hlt⟩ := h
  have hlengths := congrArg List.length heq
  have hfour := (length_lengthBytes_iff (Nat.lt_trans hlt (by decide))).mpr hlt
  simp only [tlv, List.length_cons, List.length_append] at hlengths
  by_contra hlong
  have hmax : content.length < 2 ^ 64 := by omega
  have hmore := (not_congr (length_lengthBytes_iff hmax)).mpr hlong
  omega

@[simp] lemma mechOf_oid (mech : Mech) : mechOf mech.oid = some mech := by
  cases mech with
  | krb5 => decide
  | msKrb5 => decide

lemma mechOf_krb5 : mechOf OID_KRB5 = some .krb5 := mechOf_oid .krb5

lemma parse_krbToken (h : ∃ c, single apReq (app 14) = .ok c)
    (hshort : (tlv OID OID_KRB5 ++ TOK_AP_REQ ++ apReq).length < 2 ^ 24) :
    parse (krbToken TOK_AP_REQ apReq) = .ok (.kerberos ⟨apReq, .krb5, false⟩) := by
  have hntlm : NTLMSSP.isPrefixOf (krbToken TOK_AP_REQ apReq) = false := rfl
  have hspnego : OID_KRB5 ≠ OID_SPNEGO := by decide
  rw [parse, hntlm, if_neg Bool.false_ne_true, gssFrame_krbToken hshort]
  simp only [ok_bind, if_neg hspnego, mechOf_krb5, apReqOf_append h]
  rfl

lemma negTokenInit_fields {first others token : List UInt8}
    (hfirst : (tlv SEQUENCE (tlv OID first ++ others)).length < 2 ^ 24)
    (htoken : (tlv OCTET_STRING token).length < 2 ^ 24) :
    negTokenInit.run' (encExplicit 0 (tlv SEQUENCE (tlv OID first ++ others)) ++
      encExplicit 2 (tlv OCTET_STRING token)) = .ok (first, some token) := by
  have hlength := le_length_tlv SEQUENCE (tlv OID first ++ others)
  have hlength' := le_length_tlv OID first
  rw [List.length_append] at hlength
  have hmech : (expect OID).run' (tlv OID first ++ others) = .ok first := by
    show ((expect OID (tlv OID first ++ others)).map Prod.fst) = _
    rw [reads_expect (by decide) (by omega) others]
    rfl
  have hfields := reads_explicit (n := 0) (by decide) (by decide) hfirst (encExplicit 2 (tlv OCTET_STRING token))
  have hopt : optionalItem (ctx 1) (encExplicit 2 (tlv OCTET_STRING token)) =
      .ok (none, encExplicit 2 (tlv OCTET_STRING token)) :=
    optionalItem_of_ne (show some (ctx 2) ≠ some (ctx 1) by decide)
  have hexplicit := reads_explicitOpt (n := 2) (by decide) (by decide) htoken []
  rw [List.append_nil] at hexplicit
  show ((negTokenInit _).map Prod.fst) = _
  have hlift : (liftM (Except.ok first : Except DerError _) : Reader (List UInt8))
      (encExplicit 2 (tlv OCTET_STRING token)) = .ok (first, encExplicit 2 (tlv OCTET_STRING token)) := rfl
  rw [negTokenInit, FrontReader.bind_of_ok hfields, hmech, FrontReader.bind_of_ok hlift,
    FrontReader.bind_of_ok hopt, FrontReader.bind_of_ok hexplicit]
  rfl

lemma parseSpnego_fields {others token : List UInt8}
    (hinit : (tlv SEQUENCE (encExplicit 0 (tlv SEQUENCE (tlv OID mech.oid ++ others)) ++
      encExplicit 2 (tlv OCTET_STRING token))).length < 2 ^ 24)
    (hframe : gssFrame token = .ok (OID_KRB5, TOK_AP_REQ ++ apReq))
    (h : ∃ c, single apReq (app 14) = .ok c) :
    parseSpnego (tlv (ctx 0) (tlv SEQUENCE (encExplicit 0 (tlv SEQUENCE (tlv OID mech.oid ++ others)) ++
      encExplicit 2 (tlv OCTET_STRING token)))) = .ok (.kerberos ⟨apReq, mech, true⟩) := by
  have hbody := Nat.lt_of_le_of_lt (le_length_tlv SEQUENCE _) hinit
  have hmechs := le_length_tlv (ctx 0) (tlv SEQUENCE (tlv OID mech.oid ++ others))
  have htoken := le_length_tlv (ctx 2) (tlv OCTET_STRING token)
  have hsplit := hbody
  rw [List.length_append, encExplicit, encExplicit] at hsplit
  have hmechs' := Nat.lt_of_le_of_lt (Nat.le_trans hmechs (Nat.le_add_right _ _)) hsplit
  have htoken' := Nat.lt_of_le_of_lt (Nat.le_trans htoken (Nat.le_add_left _ _)) hsplit
  rw [parseSpnego, single_tlv (by decide) hinit, ok_bind, single_tlv (by decide) hbody, ok_bind,
    negTokenInit_fields hmechs' htoken', ok_bind]
  simp only [mechOf_oid, hframe, ok_bind, mechOf_krb5, Option.isNone_some, Bool.false_eq_true, if_false,
    apReqOf_append h]
  rfl

lemma parse_spnego (h : ∃ c, single apReq (app 14) = .ok c)
    (hshort : Short (wrapApReq apReq mech true)) :
    parse (wrapApReq apReq mech true) = .ok (.kerberos ⟨apReq, mech, true⟩) := by
  have hlt := hshort.content_lt
  have hsplit := hlt
  rw [List.length_append] at hsplit
  have hinit := Nat.lt_of_le_of_lt (le_length_tlv (ctx 0) _) (Nat.lt_of_le_of_lt (Nat.le_add_left _ _) hsplit)
  have hbody := Nat.lt_of_le_of_lt (le_length_tlv SEQUENCE _) hinit
  rw [List.length_append] at hbody
  have htoken := Nat.lt_of_le_of_lt (le_length_tlv (ctx 2) _) (Nat.lt_of_le_of_lt (Nat.le_add_left _ _) hbody)
  have hkrb := Nat.lt_of_le_of_lt (le_length_tlv OCTET_STRING _) htoken
  have hinner := Nat.lt_of_le_of_lt (le_length_tlv (app 0) _) hkrb
  have hntlm : NTLMSSP.isPrefixOf (wrapApReq apReq mech true) = false := rfl
  rw [parse, hntlm, if_neg Bool.false_ne_true]
  rw [List.append_assoc] at hinit
  have hframe : gssFrame (wrapApReq apReq mech true) = _ := gssFrame_tlv (by decide) hlt
  rw [hframe, ok_bind, List.append_assoc]
  exact parseSpnego_fields hinit (gssFrame_krbToken hinner) h

/-- **A wrapped AP-REQ is offered**, under the mechanism it was wrapped with in SPNEGO. -/
theorem parse_wrapApReq (mech : Mech) (spnego : Bool) (h : ∃ c, single apReq (app 14) = .ok c)
    (hshort : Short (wrapApReq apReq mech spnego)) : parse (wrapApReq apReq mech spnego) =
      .ok (.kerberos ⟨apReq, if spnego then mech else .krb5, spnego⟩) := by
  cases spnego with
  | true => exact parse_spnego h hshort
  | false =>
      have hkrb : Short (krbToken TOK_AP_REQ apReq) := hshort
      exact parse_krbToken h hkrb.content_lt

/-! ## The answer -/

variable {rep : List UInt8}

lemma apRepOf_krbToken (h : (tlv OID OID_KRB5 ++ TOK_AP_REP ++ rep).length < 2 ^ 24) :
    apRepOf (krbToken TOK_AP_REP rep) = .ok (some rep) := by
  have hknown : ¬ (mechOf OID_KRB5).isNone = true := by decide
  rw [apRepOf, gssFrame_krbToken h, ok_bind]
  dsimp only
  rw [if_neg hknown, behindId_append rfl]
  rfl

lemma negTokenResp_fields {rest rest' : List UInt8}
    (hrest : explicitOpt 2 OCTET_STRING rest = .ok (token, rest')) :
    negTokenResp.run' (encExplicit 0 (tlv ENUMERATED [0]) ++ (encExplicit 1 (tlv OID mech.oid) ++ rest)) =
      .ok token := by
  have hoid : (tlv OID mech.oid).length < 2 ^ 24 := by
    cases mech with
    | krb5 => decide
    | msKrb5 => decide
  have hstate : Reads (explicit 0 ENUMERATED) (encExplicit 0 (tlv ENUMERATED [0])) [0] :=
    reads_explicit (by decide) (by decide) (by decide)
  have hmech : Reads (optionalItem (ctx 1)) (tlv (ctx 1) (tlv OID mech.oid)) (some (tlv OID mech.oid)) :=
    reads_optionalItem (by decide) hoid
  show ((negTokenResp _).map Prod.fst) = _
  rw [negTokenResp, FrontReader.bind_of_ok (hstate _)]
  show ((((optionalItem (ctx 1)) >>= fun _ => explicitOpt 2 OCTET_STRING : Reader _) _).map Prod.fst) = _
  rw [encExplicit, FrontReader.bind_of_ok (hmech rest), hrest]
  rfl

lemma apRepOfAnswer_fields {fields : List UInt8}
    (hfields : (tlv SEQUENCE fields).length < 2 ^ 24) (hresp : negTokenResp.run' fields = .ok token) :
    apRepOfAnswer (tlv (ctx 1) (tlv SEQUENCE fields)) = token.elim (.ok none) apRepOf := by
  have hhead : (tlv (ctx 1) (tlv SEQUENCE fields)).head? = some (ctx 1) := rfl
  have hbody := Nat.lt_of_le_of_lt (le_length_tlv SEQUENCE fields) hfields
  rw [apRepOfAnswer, if_pos hhead, single_tlv (by decide) hfields, ok_bind, single_tlv (by decide) hbody,
    ok_bind, hresp, ok_bind]
  cases token with
  | none => rfl
  | some krb => rfl

lemma answer_spnego (apReq : List UInt8) (mech : Mech) (rep : Option (List UInt8)) :
    answer ⟨apReq, mech, true⟩ rep = some (tlv (ctx 1) (tlv SEQUENCE (encExplicit 0 (tlv ENUMERATED [0]) ++
      (encExplicit 1 (tlv OID mech.oid) ++
        rep.elim [] fun rep => encExplicit 2 (tlv OCTET_STRING (krbToken TOK_AP_REP rep)))))) := by
  cases rep with
  | none => simp [answer]
  | some rep => simp [answer]

/-- **The AP-REP of an answer** is the one that was given. -/
theorem apRepOfAnswer_answer {offer : Offer} {rep : Option (List UInt8)} {token : List UInt8}
    (h : answer offer rep = some token) (hshort : Short token) : apRepOfAnswer token = .ok rep := by
  obtain ⟨apReq, mech, spnego⟩ := offer
  cases spnego with
  | false =>
      cases rep with
      | none => cases h
      | some rep =>
          obtain rfl : krbToken TOK_AP_REP rep = token := Option.some.inj h
          have hkrb : Short (tlv (app 0) (tlv OID OID_KRB5 ++ TOK_AP_REP ++ rep)) := hshort
          have hhead : (krbToken TOK_AP_REP rep).head? ≠ some (ctx 1) :=
            show some (app 0) ≠ some (ctx 1) by decide
          rw [apRepOfAnswer, if_neg hhead, apRepOf_krbToken hkrb.content_lt]
  | true =>
      cases rep with
      | none =>
          rw [answer_spnego, Option.some.injEq] at h
          subst h
          exact apRepOfAnswer_fields hshort.content_lt (negTokenResp_fields (explicitOpt_nil 2))
      | some rep =>
          rw [answer_spnego, Option.some.injEq] at h
          subst h
          have hlt := hshort.content_lt
          have hbody := Nat.lt_of_le_of_lt (le_length_tlv SEQUENCE _) hlt
          rw [List.length_append, List.length_append] at hbody
          have hfields := Nat.lt_of_le_of_lt (Nat.le_add_left _ _) (Nat.lt_of_le_of_lt (Nat.le_add_left _ _) hbody)
          rw [Option.elim_some] at hfields
          have hoctets := Nat.lt_of_le_of_lt (le_length_tlv (ctx 2) _) hfields
          have hkrb := Nat.lt_of_le_of_lt (le_length_tlv OCTET_STRING _) hoctets
          have hinner := Nat.lt_of_le_of_lt (le_length_tlv (app 0) _) hkrb
          have hopt := reads_explicitOpt (n := 2) (by decide) (by decide) hoctets []
          rw [List.append_nil] at hopt
          rw [apRepOfAnswer_fields hlt (negTokenResp_fields hopt), Option.elim_some, apRepOf_krbToken hinner]

/-- **Negotiate tokens survive wrapping**, where their lengths take at most three bytes. -/
theorem tokens_survive_wrapping :
    (∀ apReq mech spnego, (∃ c, single apReq (app 14) = .ok c) → Short (wrapApReq apReq mech spnego) →
      parse (wrapApReq apReq mech spnego) =
        .ok (.kerberos ⟨apReq, if spnego then mech else .krb5, spnego⟩)) ∧
    ∀ offer rep token, answer offer rep = some token → Short token → apRepOfAnswer token = .ok rep :=
  ⟨fun _ mech spnego h hshort => parse_wrapApReq mech spnego h hshort,
    fun _ _ _ h hshort => apRepOfAnswer_answer h hshort⟩

/-- An AP-REQ of an empty sequence, in SPNEGO, and the answer with a short AP-REP. -/
theorem tokens_survive_wrapping_small :
    parse (wrapApReq [0x6e, 0x02, 0x30, 0x00] .msKrb5 true) =
      .ok (.kerberos ⟨[0x6e, 0x02, 0x30, 0x00], .msKrb5, true⟩) ∧
    ∃ token, answer ⟨[0x6e, 0x02, 0x30, 0x00], .msKrb5, true⟩ (some [0x72, 0x65, 0x70]) = some token ∧
      apRepOfAnswer token = .ok (some [0x72, 0x65, 0x70]) :=
  ⟨tokens_survive_wrapping.1 [0x6e, 0x02, 0x30, 0x00] .msKrb5 true ⟨[0x30, 0x00], rfl⟩
      ⟨_, _, rfl, by decide⟩,
    _, rfl, tokens_survive_wrapping.2 ⟨[0x6e, 0x02, 0x30, 0x00], .msKrb5, true⟩ (some [0x72, 0x65, 0x70]) _ rfl
      ⟨_, _, rfl, by decide⟩⟩

lemma apRepOfAnswer_long (h : 2 ^ 24 ≤ (tlv OID OID_KRB5 ++ TOK_AP_REP ++ rep).length)
    (hmax : (tlv OID OID_KRB5 ++ TOK_AP_REP ++ rep).length < 2 ^ 64) :
    apRepOfAnswer (krbToken TOK_AP_REP rep) = .error ⟨"length out of range"⟩ := by
  have hhead : (krbToken TOK_AP_REP rep).head? ≠ some (ctx 1) := show some (app 0) ≠ some (ctx 1) by decide
  have hitem : item (krbToken TOK_AP_REP rep ++ []) = .error ⟨"length out of range"⟩ :=
    item_long (by decide) h hmax []
  rw [List.append_nil] at hitem
  have hexpect : expect (app 0) (krbToken TOK_AP_REP rep) = .error ⟨"length out of range"⟩ := by
    show ((item (krbToken TOK_AP_REP rep)).bind _) = _
    rw [hitem]
    rfl
  have hframe : gssFrame (krbToken TOK_AP_REP rep) = .error ⟨"length out of range"⟩ := by
    rw [gssFrame, single, hexpect]
    rfl
  rw [apRepOfAnswer, if_neg hhead, apRepOf, hframe]
  rfl

/-- An AP-REP of 2^24 bytes is answered with, and not read back. -/
theorem long_answer_refused : ∃ token,
    answer ⟨[], .krb5, false⟩ (some (List.replicate (2 ^ 24) 0)) = some token ∧
      apRepOfAnswer token = .error ⟨"length out of range"⟩ := by
  have hfront : (tlv OID OID_KRB5 ++ TOK_AP_REP).length = 13 := by decide
  refine ⟨_, rfl, apRepOfAnswer_long ?_ ?_⟩
  · rw [List.length_append, List.length_replicate, hfront]
    omega
  · rw [List.length_append, List.length_replicate, hfront]
    omega

end

end Spnego

end Ridm.Kerberos
