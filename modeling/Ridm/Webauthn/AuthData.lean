import Ridm.Webauthn.Cbor

/-!
# Authenticator data

`AuthData::parse` of `api/src/webauthn/ceremony.rs`: 37 bytes, then the attested credential with its COSE key
and the extensions, where the flags say so.  The key is one CBOR item, so what follows it begins where the
item ends (`cuts_front`).
-/

namespace Ridm.Webauthn

open FrontReader (Reads Cuts)

/-- `Flags`, with `at` as `attested`. -/
structure Flags where
  up : Bool
  uv : Bool
  be : Bool
  bs : Bool
  attested : Bool
  ed : Bool

/-- `Flags::from`. -/
def Flags.ofByte (b : UInt8) : Flags where
  up := b &&& 0x01 != 0
  uv := b &&& 0x04 != 0
  be := b &&& 0x08 != 0
  bs := b &&& 0x10 != 0
  attested := b &&& 0x40 != 0
  ed := b &&& 0x80 != 0

/-- Why the bytes are rejected. -/
structure Rejected where
  reason : String

/-- The authenticator data, parsed. -/
structure AuthData where
  rpIdHash : List UInt8
  flags : Flags
  counter : ℕ
  credential : Option (List UInt8 × Value)
  extensions : Option Value

/-- What `parse` says of anything that it does not read. -/
def malformed : Rejected := ⟨"malformed authenticator data"⟩

def cborItem : FrontReader Rejected UInt8 Value := FrontReader.mapError (fun _ => malformed) (item 0)

/-- The AAGUID, the length of the credential id, the id and the COSE key. -/
def attestedCredential : FrontReader Rejected UInt8 (List UInt8 × Value) := do
  let head ← FrontReader.take malformed 18
  let id ← FrontReader.take malformed (BigEndian.toNat (head.drop 16))
  let key ← cborItem
  pure (id, key)

/-- The credential, where the flags say that it is there. -/
def credentialOf (flags : Flags) : FrontReader Rejected UInt8 (Option (List UInt8 × Value)) :=
  if flags.attested then some <$> attestedCredential else pure none

/-- What stands before the extensions. -/
def front : FrontReader Rejected UInt8 AuthData := do
  let fixed ← FrontReader.take malformed 37
  let flags := Flags.ofByte (fixed.getD 32 0)
  let credential ← credentialOf flags
  pure
    { rpIdHash := fixed.take 32
      flags := flags
      counter := BigEndian.toNat (fixed.drop 33)
      credential := credential
      extensions := none }

/-- The extensions; nothing is asked of what follows them. -/
def extensionsOf (flags : Flags) (rest : List UInt8) : Except Rejected (Option Value) :=
  if flags.ed then (cborItem rest).map fun r => some r.1 else .ok none

/-- `AuthData::parse`. -/
def AuthData.parse (bytes : List UInt8) : Except Rejected AuthData := do
  let (data, rest) ← front bytes
  let extensions ← extensionsOf data.flags rest
  pure { data with extensions := extensions }

lemma cuts_cborItem : Cuts 1 cborItem :=
  (cuts_itemIn _).mapError _

lemma cuts_attestedCredential : Cuts 18 attestedCredential :=
  (FrontReader.cuts_take malformed 18).bind_left fun _ =>
    ((FrontReader.cuts_take malformed _).bind_left fun _ =>
      (cuts_cborItem.bind_left fun _ => Cuts.pure _).mono (Nat.zero_le 1)).mono (Nat.zero_le _)

lemma cuts_credentialOf (flags : Flags) : Cuts 0 (credentialOf flags) := by
  rw [credentialOf]
  split_ifs
  · rw [map_eq_pure_bind]
    exact (cuts_attestedCredential.bind_left fun _ => Cuts.pure _).mono (Nat.zero_le 18)
  · exact Cuts.pure none

/-- **What stands before the extensions** is cut off whatever follows. -/
lemma cuts_front : Cuts 37 front :=
  (FrontReader.cuts_take malformed 37).bind_left fun _ =>
    (cuts_credentialOf _).bind_left fun _ => Cuts.pure _

/-- **Authenticator data is cut the same way whatever follows a key**: only the extensions are another
matter. -/
theorem parse_cuts {bytes : List UInt8} {data : AuthData} (h : AuthData.parse bytes = .ok data) :
    ∃ p rest, bytes = p ++ rest ∧ ∀ rest', AuthData.parse (p ++ rest') =
      (extensionsOf data.flags rest').map fun e => { data with extensions := e } := by
  cases hfront : front bytes with
  | error e =>
      rw [AuthData.parse, hfront] at h
      cases h
  | ok r =>
      obtain ⟨d, rest⟩ := r
      obtain ⟨p, hp, -, hreads⟩ := cuts_front _ _ _ hfront
      refine ⟨p, rest, hp, fun rest' => ?_⟩
      have hparse : ∀ rest, AuthData.parse (p ++ rest) =
          (extensionsOf d.flags rest).map fun e => { d with extensions := e } := by
        intro rest
        rw [AuthData.parse, hreads rest]
        rfl
      rw [hp, hparse] at h
      cases hext : extensionsOf d.flags rest with
      | error e =>
          rw [hext] at h
          cases h
      | ok e =>
          rw [hext] at h
          cases h
          exact hparse rest'

/-- **Decoding is exact.**  Every spelling of a value is read and what follows it is left, what was read is
read again whatever follows, and authenticator data is cut after the key it holds. -/
theorem decoding_exact :
    (∀ v w rest, nesting v ≤ MAX_DEPTH → Encodes v w → decode (w ++ rest) = .ok (v, rest)) ∧
    (∀ input v rest, decode input = .ok (v, rest) →
      ∃ p, input = p ++ rest ∧ ∀ rest', decode (p ++ rest') = .ok (v, rest')) ∧
    ∀ bytes data, AuthData.parse bytes = .ok data →
      ∃ p rest, bytes = p ++ rest ∧ ∀ rest', AuthData.parse (p ++ rest') =
        (extensionsOf data.flags rest').map fun e => { data with extensions := e } :=
  ⟨fun _ _ _ hdeep h => decode_encodes hdeep h, fun _ _ _ h => decode_cuts h, fun _ _ h => parse_cuts h⟩

/-- A map of two entries before a byte, an item before a byte, and authenticator data without a credential
before a byte. -/
theorem decoding_exact_small :
    decode ([0xa2, 0x01, 0x18, 0x02, 0x03, 0x04] ++ [0xff]) =
      .ok (.map [(.int 1, .int 2), (.int 3, .int 4)], [0xff]) ∧
    (∃ p, [0xf5, 0xff] = p ++ [0xff] ∧ ∀ rest', decode (p ++ rest') = .ok (.bool true, rest')) ∧
    ∃ p rest, List.replicate 37 0 ++ [0xff] = p ++ rest ∧ ∀ rest', AuthData.parse (p ++ rest') =
      .ok ⟨List.replicate 32 0, ⟨false, false, false, false, false, false⟩, 0, none, none⟩ := by
  obtain ⟨p, rest, hp, hcut⟩ := decoding_exact.2.2 (List.replicate 37 0 ++ [0xff])
    ⟨List.replicate 32 0, ⟨false, false, false, false, false, false⟩, 0, none, none⟩ rfl
  refine ⟨decoding_exact.1 _ _ _ (by decide) ?_, decoding_exact.2.1 _ _ _ rfl, p, rest, hp,
    fun rest' => hcut rest'⟩
  refine ⟨[0xa2], [0x01, 0x18, 0x02, 0x03, 0x04], .inline (by decide), ?_, rfl⟩
  refine ⟨[0x01], [0x18, 0x02], [0x03, 0x04], .inl ⟨1, rfl, .inline (by decide)⟩,
    .inl ⟨2, rfl, .wide 0 (by decide) (by decide)⟩, ?_, rfl⟩
  exact ⟨[0x03], [0x04], [], .inl ⟨3, rfl, .inline (by decide)⟩, .inl ⟨4, rfl, .inline (by decide)⟩, rfl, rfl⟩

end Ridm.Webauthn
