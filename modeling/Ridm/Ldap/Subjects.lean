import Ridm.Core.Types
import Ridm.Core.Uuid128
import Ridm.Lib.Utf8

/-!
# Finding an entry by its subject

`api/src/ldap/entry.rs` reads search results (`Entry::from_tag`) and takes an entry's stable identifier from
an attribute (`Entry::uuid`).  `subject_filter` of `api/src/services/ldap.rs` makes of it the filter that finds
the entry again.  What a filter asserts is RFC 4515's.

The identifier is made by what the value is: bytes that are not UTF-8 are written as a GUID, and so are 16
bytes of an `objectGUID`; other text is trimmed.  It is turned back by what the attribute is called: only of
`objectGUID` a GUID becomes bytes.  `finds_iff` says for which values the two agree, and
`binary_value_not_found` is an entry whose value they disagree on.  A GUID's own text is always read back
(`guidBytes_guidString`).
-/

namespace Ridm.Ldap.Search

open Utf8 (utf8 fromUtf8 fromUtf8_utf8 length_utf8)
open Uuid128 (hexValue)

/-! ## Search results -/

/-- A BER tree, as the filter is sent. -/
inductive StructureTag
  | primitive (id : ℕ) (bytes : List UInt8)
  | constructed (id : ℕ) (items : List StructureTag)

namespace StructureTag

def matchId (t : StructureTag) (n : ℕ) : Option StructureTag :=
  match t with
  | primitive id _ => if id = n then some t else none
  | constructed id _ => if id = n then some t else none

def expectConstructed : StructureTag → Option (List StructureTag)
  | primitive _ _ => none
  | constructed _ items => some items

def expectPrimitive : StructureTag → Option (List UInt8)
  | primitive _ bytes => some bytes
  | constructed _ _ => none

end StructureTag

/-- An entry as a search returns it. -/
structure Entry where
  dn : String
  attrs : String → Option (List String)
  binAttrs : String → Option (List (List UInt8))

def MAX_VALUES : ℕ := 100000

namespace Entry

def sortValues : List (List UInt8) → List String × List (List UInt8)
  | [] => ([], [])
  | raw :: raws =>
      match fromUtf8 raw with
      | some s => (s :: (sortValues raws).1, (sortValues raws).2)
      | none => ((sortValues raws).1, raw :: (sortValues raws).2)

def insert (e : Entry) (name : String) (raws : List (List UInt8)) : Entry :=
  let (text, bin) := sortValues raws
  if bin.isEmpty then { e with attrs := Function.update e.attrs name (some text) }
  else { e with binAttrs := Function.update e.binAttrs name (some (bin ++ text.map utf8)) }

def readAttribute (e : Entry) (item : StructureTag) : Option Entry := do
  let parts ← item.expectConstructed
  let name ← parts[0]? >>= StructureTag.expectPrimitive >>= fromUtf8
  let values ← parts[1]? >>= StructureTag.expectConstructed
  let raws ← (values.take MAX_VALUES).mapM StructureTag.expectPrimitive
  some (e.insert (toAsciiLowercase name) raws)

def fromTag (tag : StructureTag) : Option Entry := do
  let tags ← tag.matchId 4 >>= StructureTag.expectConstructed
  let dn ← tags[0]? >>= StructureTag.expectPrimitive >>= fromUtf8
  let attributes ← tags[1]? >>= StructureTag.expectConstructed
  attributes.foldlM readAttribute ⟨dn, fun _ => none, fun _ => none⟩

def values (e : Entry) (attr : String) : List String := (e.attrs (toAsciiLowercase attr)).getD []

def first (e : Entry) (attr : String) : Option String := (e.values attr).head?

end Entry

/-! ## GUIDs -/

/-- `{:02x}`. -/
def hexByte (b : UInt8) : List Char := hexFixed 2 b.toNat

/-- `guid_string`: the first three fields are little-endian. -/
def guidString : List UInt8 → Option String
  | [b0, b1, b2, b3, b4, b5, b6, b7, b8, b9, b10, b11, b12, b13, b14, b15] =>
      some (String.ofList ([b3, b2, b1, b0].flatMap hexByte ++ '-' :: [b5, b4].flatMap hexByte ++
        '-' :: [b7, b6].flatMap hexByte ++ '-' :: [b8, b9].flatMap hexByte ++
        '-' :: [b10, b11, b12, b13, b14, b15].flatMap hexByte))
  | _ => none

/-- The value of a byte that is a hexadecimal digit.  The source cuts the text by bytes and refuses one
cut within a character, and a character that is no digit. -/
def digitValue (b : UInt8) : Option ℕ := hexValue (Char.ofNat b.toNat)

/-- `u8::from_str_radix(_, 16)` of two bytes, which may begin with a plus sign. -/
def fromStrRadix16 (a b : UInt8) : Option UInt8 :=
  if a = 0x2b then (digitValue b).map UInt8.ofNat
  else do
    let hi ← digitValue a
    let lo ← digitValue b
    some (UInt8.ofNat (16 * hi + lo))

/-- The loop of `guid_bytes`. -/
def rawBytes : List UInt8 → Option (List UInt8)
  | a :: b :: rest => do
      let byte ← fromStrRadix16 a b
      let bytes ← rawBytes rest
      some (byte :: bytes)
  | _ => some []

def guidBytes (guid : String) : Option (List UInt8) :=
  let hex := utf8 (String.ofList (guid.toList.filter (· != '-')))
  if hex.length ≠ 32 then none
  else
    match rawBytes hex with
    | some [r0, r1, r2, r3, r4, r5, r6, r7, r8, r9, r10, r11, r12, r13, r14, r15] =>
        some [r3, r2, r1, r0, r5, r4, r7, r6, r8, r9, r10, r11, r12, r13, r14, r15]
    | _ => none

/-- `Entry::uuid`. -/
def Entry.uuid (e : Entry) (attr : String) : Option String :=
  let key := toAsciiLowercase attr
  match (e.binAttrs key).bind List.head? with
  | some bytes => guidString bytes
  | none =>
      match e.first attr with
      | none => none
      | some text =>
          if key = "objectguid" ∧ text.utf8ByteSize = 16 then guidString (utf8 text)
          else
            let t := trim text
            if t ≠ "" ∧ t.utf8ByteSize ≤ 512 then some t else none

/-! ## Filters -/

def checkAttribute (name : String) : Except String Unit :=
  let okName := name.toList.head?.any Char.isAlpha && name.toList.all fun c => isAsciiAlphanumeric c || c == '-'
  let okOid := name ≠ "" && (split name '.').all fun p =>
    p ≠ "" && p.toList.all isAsciiDigit && decide (p.utf8ByteSize ≤ 10)
  if name.utf8ByteSize ≤ 64 ∧ (okName || okOid) then .ok () else
    .error s!"\x60{name}\x60 is not an LDAP attribute name"

/-- `eq`: `escape` is `ldap3::ldap_escape`. -/
def eq (escape : String → String) (attr value : String) : String :=
  "(" ++ attr ++ "=" ++ escape value ++ ")"

def eqBytes (attr : String) (value : List UInt8) : String :=
  "(" ++ attr ++ "=" ++ String.ofList (value.flatMap fun b => '\\' :: hexByte b) ++ ")"

/-- `subject_filter`, under the uuid attribute of the configuration. -/
def subjectFilter (escape : String → String) (attr subject : String) : String :=
  match if eqIgnoreAsciiCase attr "objectGUID" then guidBytes subject else none with
  | some bytes => eqBytes attr bytes
  | none => eq escape attr subject

/-! ## What a filter asserts -/

/-- The octets of an assertion value of RFC 4515: a backslash and two digits are one octet, other characters
are their UTF-8, and those with a meaning of their own must be escaped. -/
def unescape : List Char → Option (List UInt8)
  | [] => some []
  | c :: rest =>
      if c = '\\' then
        match rest with
        | h :: l :: rest' => do
            let hi ← hexValue h
            let lo ← hexValue l
            let octets ← unescape rest'
            some (UInt8.ofNat (16 * hi + lo) :: octets)
        | _ => none
      else if c = '(' ∨ c = ')' ∨ c = '*' ∨ c = '\x00' then none
      else (unescape rest).map (String.utf8EncodeChar c ++ ·)

/-- The attribute and the octets that an equality filter of RFC 4515 asserts. -/
def assertion (filter : String) : Option (String × List UInt8) :=
  match filter.toList with
  | '(' :: rest =>
      if rest.getLast? = some ')' then
        match splitOnce (String.ofList rest.dropLast) '=' with
        | some (attr, value) => (unescape value.toList).map (attr, ·)
        | none => none
      else none
  | _ => none

/-- What `ldap3::ldap_escape` is for: the escaped text stands for the text. -/
def Escapes (escape : String → String) : Prop := ∀ s, unescape (escape s).toList = some (utf8 s)

/-! ## A GUID's text -/

variable {escape : String → String} {attr s : String} {bytes value : List UInt8} {b : UInt8}

lemma hexByte_eq (b : UInt8) : hexByte b = [hexDigit (b.toNat / 16), hexDigit (b.toNat % 16)] := by
  have hb : b.toNat / 16 % 16 = b.toNat / 16 := Nat.mod_eq_of_lt (by have := b.toNat_lt; omega)
  rw [hexByte, hexFixed, hexFixed, hexFixed, hb]
  rfl

lemma hexDigit_spec {d : ℕ} (hd : d < 16) :
    digitValue (UInt8.ofNat (hexDigit d).toNat) = some d ∧ UInt8.ofNat (hexDigit d).toNat ≠ 0x2b ∧
      hexDigit d ≠ '-' ∧ (hexDigit d).toNat < 128 := by
  have hall : ∀ d < 16, digitValue (UInt8.ofNat (hexDigit d).toNat) = some d ∧
      UInt8.ofNat (hexDigit d).toNat ≠ 0x2b ∧ hexDigit d ≠ '-' ∧ (hexDigit d).toNat < 128 := by decide
  exact hall d hd

lemma mem_hexByte {c : Char} (hc : c ∈ hexByte b) : ∃ d < 16, c = hexDigit d := by
  have hb := b.toNat_lt
  rw [hexByte_eq, List.mem_cons, List.mem_singleton] at hc
  rcases hc with rfl | rfl
  · exact ⟨_, by omega, rfl⟩
  · exact ⟨_, Nat.mod_lt _ (by decide), rfl⟩

/-- The digits of bytes, as bytes. -/
def hexText (bytes : List UInt8) : List Char := bytes.flatMap hexByte

lemma mem_hexText {c : Char} (hc : c ∈ hexText bytes) : ∃ d < 16, c = hexDigit d := by
  obtain ⟨b, -, hb⟩ := List.mem_flatMap.mp hc
  exact mem_hexByte hb

lemma filter_hexText (bytes : List UInt8) : (hexText bytes).filter (· != '-') = hexText bytes := by
  refine List.filter_eq_self.mpr fun c hc => ?_
  obtain ⟨d, hd, rfl⟩ := mem_hexText hc
  exact bne_iff_ne.mpr (hexDigit_spec hd).2.2.1

lemma utf8_hexText (bytes : List UInt8) :
    utf8 (String.ofList (hexText bytes)) = (hexText bytes).map fun c => UInt8.ofNat c.toNat := by
  refine Utf8.utf8_ofList_ascii fun c hc => ?_
  obtain ⟨d, hd, rfl⟩ := mem_hexText hc
  exact (hexDigit_spec hd).2.2.2

lemma length_hexText (bytes : List UInt8) : (hexText bytes).length = 2 * bytes.length := by
  induction bytes with
  | nil => rfl
  | cons b bytes ih =>
      rw [hexText, List.flatMap_cons, List.length_append, hexByte_eq]
      show 2 + (hexText bytes).length = 2 * (bytes.length + 1)
      rw [ih]
      omega

lemma fromStrRadix16_hex (b : UInt8) :
    fromStrRadix16 (UInt8.ofNat (hexDigit (b.toNat / 16)).toNat) (UInt8.ofNat (hexDigit (b.toNat % 16)).toNat) =
      some b := by
  have hb := b.toNat_lt
  obtain ⟨hhi, hplus, -, -⟩ := hexDigit_spec (d := b.toNat / 16) (by omega)
  obtain ⟨hlo, -, -, -⟩ := hexDigit_spec (d := b.toNat % 16) (by omega)
  rw [fromStrRadix16, if_neg hplus, hhi, hlo]
  show some (UInt8.ofNat (16 * (b.toNat / 16) + b.toNat % 16)) = _
  rw [Nat.div_add_mod, UInt8.ofNat_toNat]

lemma rawBytes_hexText (bytes : List UInt8) :
    rawBytes ((hexText bytes).map fun c => UInt8.ofNat c.toNat) = some bytes := by
  induction bytes with
  | nil => rfl
  | cons b bytes ih =>
      have hcons : hexText (b :: bytes) =
          hexDigit (b.toNat / 16) :: hexDigit (b.toNat % 16) :: hexText bytes := by
        rw [hexText, List.flatMap_cons, hexByte_eq]
        rfl
      rw [hcons, List.map_cons, List.map_cons, rawBytes, fromStrRadix16_hex, ih]
      rfl

lemma guidString_cases (h : guidString bytes = some s) :
    ∃ b0 b1 b2 b3 b4 b5 b6 b7 b8 b9 b10 b11 b12 b13 b14 b15,
      bytes = [b0, b1, b2, b3, b4, b5, b6, b7, b8, b9, b10, b11, b12, b13, b14, b15] ∧
        s.toList = hexText [b3, b2, b1, b0] ++ '-' :: hexText [b5, b4] ++ '-' :: hexText [b7, b6] ++
          '-' :: hexText [b8, b9] ++ '-' :: hexText [b10, b11, b12, b13, b14, b15] := by
  unfold guidString at h
  split at h
  · rw [← Option.some.inj h, String.toList_ofList]
    exact ⟨_, _, _, _, _, _, _, _, _, _, _, _, _, _, _, _, rfl, rfl⟩
  · exact nomatch h

lemma guidString_isSome (h : bytes.length = 16) : ∃ s, guidString bytes = some s := by
  match bytes, h with
  | [_, _, _, _, _, _, _, _, _, _, _, _, _, _, _, _], _ => exact ⟨_, rfl⟩

/-- **A GUID's text is read as the bytes it was made of.** -/
theorem guidBytes_guidString (h : guidString bytes = some s) : guidBytes s = some bytes := by
  obtain ⟨b0, b1, b2, b3, b4, b5, b6, b7, b8, b9, b10, b11, b12, b13, b14, b15, rfl, hs⟩ := guidString_cases h
  have hdigits : s.toList.filter (· != '-') =
      hexText [b3, b2, b1, b0, b5, b4, b7, b6, b8, b9, b10, b11, b12, b13, b14, b15] := by
    simp only [hs, List.filter_append, List.filter_cons, filter_hexText, bne_self_eq_false,
      Bool.false_eq_true, if_false]
    simp [hexText]
  have hbytes := utf8_hexText [b3, b2, b1, b0, b5, b4, b7, b6, b8, b9, b10, b11, b12, b13, b14, b15]
  have hlen : (utf8 (String.ofList (hexText
      [b3, b2, b1, b0, b5, b4, b7, b6, b8, b9, b10, b11, b12, b13, b14, b15]))).length = 32 := by
    rw [hbytes, List.length_map, length_hexText]
    rfl
  rw [guidBytes, hdigits, if_neg (by rw [hlen]; decide), hbytes, rawBytes_hexText]

lemma guidBytes_length (h : guidBytes s = some bytes) : bytes.length = 16 := by
  unfold guidBytes at h
  dsimp only at h
  split at h
  · exact nomatch h
  · split at h
    · rw [← Option.some.inj h]
      rfl
    · exact nomatch h

lemma guidString_length (h : guidString bytes = some s) : bytes.length = 16 ∧ (utf8 s).length = 36 := by
  obtain ⟨b0, b1, b2, b3, b4, b5, b6, b7, b8, b9, b10, b11, b12, b13, b14, b15, rfl, hs⟩ := guidString_cases h
  have hhex : ∀ l, ∀ c ∈ hexText l, c.toNat < 128 := by
    intro l c hc
    obtain ⟨d, hd, rfl⟩ := mem_hexText hc
    exact (hexDigit_spec hd).2.2.2
  have hascii : ∀ c ∈ s.toList, c.toNat < 128 := by
    have hhyphen : '-'.toNat < 128 := by decide
    simp only [hs, List.forall_mem_append, List.forall_mem_cons]
    exact ⟨⟨⟨⟨hhex _, hhyphen, hhex _⟩, hhyphen, hhex _⟩, hhyphen, hhex _⟩, hhyphen, hhex _⟩
  refine ⟨rfl, ?_⟩
  rw [← String.ofList_toList (s := s), Utf8.utf8_ofList_ascii hascii, List.length_map, hs]
  simp [length_hexText]

/-! ## What the filters assert -/

lemma mem_splitOn {c sep : Char} {l : List Char} (hc : c ≠ sep) (hmem : c ∈ l) :
    ∃ piece ∈ l.splitOn sep, c ∈ piece := by
  induction l with
  | nil => exact absurd hmem List.not_mem_nil
  | cons d l ih =>
      rw [List.splitOn_cons_eq_if_modifyHead]
      split_ifs with hd
      · have hrest : c ∈ l := (List.mem_cons.mp hmem).resolve_left fun heq => hc (heq.trans (by simpa using hd))
        obtain ⟨piece, hpiece, hin⟩ := ih hrest
        exact ⟨piece, List.mem_cons_of_mem _ hpiece, hin⟩
      · cases hsplit : l.splitOn sep with
        | nil => exact absurd hsplit (List.splitOn_ne_nil sep l)
        | cons first rest =>
            rw [hsplit] at ih
            show ∃ piece ∈ (d :: first) :: rest, c ∈ piece
            rcases List.mem_cons.mp hmem with rfl | hrest
            · exact ⟨_, List.mem_cons_self, List.mem_cons_self⟩
            · obtain ⟨piece, hpiece, hin⟩ := ih hrest
              rcases List.mem_cons.mp hpiece with rfl | hpiece
              · exact ⟨_, List.mem_cons_self, List.mem_cons_of_mem _ hin⟩
              · exact ⟨piece, List.mem_cons_of_mem _ hpiece, hin⟩

lemma notMem_attr (h : checkAttribute attr = .ok ()) : '=' ∉ attr.toList := by
  rw [checkAttribute] at h
  split_ifs at h with hname
  rcases Bool.or_eq_true_iff.mp hname.2 with hok | hok
  · have hall := List.all_eq_true.mp (Bool.and_eq_true_iff.mp hok).2
    intro hmem
    exact absurd (hall '=' hmem) (by decide)
  · have hall := List.all_eq_true.mp (Bool.and_eq_true_iff.mp hok).2
    intro hmem
    obtain ⟨part, hpart, hin⟩ := mem_splitOn (show '=' ≠ '.' by decide) hmem
    have hdigits := (Bool.and_eq_true_iff.mp (Bool.and_eq_true_iff.mp
      (hall (String.ofList part) (List.mem_map_of_mem hpart))).1).2
    rw [String.toList_ofList] at hdigits
    exact absurd (List.all_eq_true.mp hdigits '=' hin) (by decide)

lemma assertion_eq (hattr : '=' ∉ attr.toList) {text : String} (hvalue : unescape text.toList = some value) :
    assertion ("(" ++ attr ++ "=" ++ text ++ ")") = some (attr, value) := by
  have hlist : ("(" ++ attr ++ "=" ++ text ++ ")").toList =
      '(' :: ((attr ++ String.singleton '=' ++ text).toList ++ [')']) := by
    simp
  rw [assertion, hlist]
  simp only [List.getLast?_concat, if_true, List.dropLast_concat, String.ofList_toList,
    splitOnce_append hattr, hvalue, Option.map_some]

lemma unescape_octet (b : UInt8) (rest : List Char) :
    unescape ('\\' :: (hexByte b ++ rest)) = (unescape rest).map (b :: ·) := by
  have hb := b.toNat_lt
  have hhi : hexValue (hexDigit (b.toNat / 16)) = some (b.toNat / 16) :=
    Uuid128.hexValue_hexDigit (by omega)
  have hlo : hexValue (hexDigit (b.toNat % 16)) = some (b.toNat % 16) :=
    Uuid128.hexValue_hexDigit (Nat.mod_lt _ (by decide))
  rw [hexByte_eq, unescape.eq_def]
  simp only [if_true, List.cons_append, List.nil_append, hhi, hlo, Option.bind_eq_bind, Option.bind_some,
    Nat.div_add_mod, UInt8.ofNat_toNat]
  cases unescape rest <;> rfl

lemma unescape_bytes (bytes : List UInt8) :
    unescape (bytes.flatMap fun b => '\\' :: hexByte b) = some bytes := by
  induction bytes with
  | nil => rfl
  | cons b bytes ih =>
      rw [List.flatMap_cons, List.cons_append, unescape_octet, ih]
      rfl

/-! ## Which values are found again -/

variable {e e₁ e₂ : Entry} {s₁ s₂ : String}

namespace Entry

/-- The first value of an attribute that is not text. -/
def firstBinary (e : Entry) (attr : String) : Option (List UInt8) :=
  (e.binAttrs (toAsciiLowercase attr)).bind List.head?

def firstValue (e : Entry) (attr : String) : Option (List UInt8) :=
  match e.firstBinary attr with
  | some bytes => some bytes
  | none => (e.first attr).map utf8

/-- The filter made of the subject asserts the first value of the attribute, octet for octet. -/
def Finds (escape : String → String) (attr : String) (e : Entry) (subject : String) : Prop :=
  ∃ value, e.firstValue attr = some value ∧ assertion (subjectFilter escape attr subject) = some (attr, value)

/-- A text that the filter gives back: the sixteen bytes of an `objectGUID`, or text without white space
around it that is not read as a GUID where GUIDs are read. -/
def KeptText (attr text : String) : Prop :=
  (toAsciiLowercase attr = "objectguid" ∧ text.utf8ByteSize = 16) ∨
    (trim text = text ∧ (toAsciiLowercase attr = "objectguid" → guidBytes text = none))

/-- A first value that the filter gives back: a binary one of an `objectGUID`, or such a text. -/
def Kept (attr : String) (e : Entry) : Prop :=
  match e.firstBinary attr with
  | some _ => toAsciiLowercase attr = "objectguid"
  | none => ∀ text, e.first attr = some text → KeptText attr text

end Entry

lemma eqIgnoreAsciiCase_objectGUID :
    eqIgnoreAsciiCase attr "objectGUID" = true ↔ toAsciiLowercase attr = "objectguid" := by
  have hlower : toAsciiLowercase "objectGUID" = "objectguid" := by
    rw [← String.toList_inj, toList_toAsciiLowercase]
    decide
  rw [eqIgnoreAsciiCase, hlower, beq_iff_eq]

lemma assertion_subjectFilter (hescape : Escapes escape) (hattr : '=' ∉ attr.toList) (s : String) :
    assertion (subjectFilter escape attr s) =
      some (attr, if toAsciiLowercase attr = "objectguid" then (guidBytes s).getD (utf8 s) else utf8 s) := by
  rw [subjectFilter]
  by_cases hguid : toAsciiLowercase attr = "objectguid"
  · rw [if_pos hguid, if_pos (eqIgnoreAsciiCase_objectGUID.mpr hguid)]
    cases hbytes : guidBytes s with
    | none => exact assertion_eq hattr (hescape s)
    | some bytes => exact assertion_eq hattr (by rw [String.toList_ofList]; exact unescape_bytes bytes)
  · rw [if_neg hguid, if_neg (mt eqIgnoreAsciiCase_objectGUID.mp hguid)]
    exact assertion_eq hattr (hescape s)

lemma finds_iff_eq (hescape : Escapes escape) (hattr : '=' ∉ attr.toList)
    (hvalue : e.firstValue attr = some value) :
    e.Finds escape attr s ↔
      value = if toAsciiLowercase attr = "objectguid" then (guidBytes s).getD (utf8 s) else utf8 s := by
  rw [Entry.Finds, assertion_subjectFilter hescape hattr, hvalue]
  constructor
  · rintro ⟨v, hv, hassert⟩
    rw [Option.some.inj hv]
    exact (Prod.mk.inj (Option.some.inj hassert)).2.symm
  · intro heq
    exact ⟨value, rfl, by rw [heq]⟩

lemma finds_iff_binary (hescape : Escapes escape) (hattr : '=' ∉ attr.toList)
    (hbin : e.firstBinary attr = some bytes) (hguid : guidString bytes = some s) :
    e.Finds escape attr s ↔ toAsciiLowercase attr = "objectguid" := by
  have hvalue : e.firstValue attr = some bytes := by rw [Entry.firstValue, hbin]
  obtain ⟨hlen, hlong⟩ := guidString_length hguid
  rw [finds_iff_eq hescape hattr hvalue, guidBytes_guidString hguid]
  constructor
  · intro heq
    by_contra hother
    rw [if_neg hother] at heq
    rw [heq, hlong] at hlen
    exact absurd hlen (by decide)
  · intro hkey
    rw [if_pos hkey]
    rfl

lemma finds_iff_trimmed {text : String} (hescape : Escapes escape) (hattr : '=' ∉ attr.toList)
    (hvalue : e.firstValue attr = some (utf8 text))
    (hbytes : ¬ (toAsciiLowercase attr = "objectguid" ∧ text.utf8ByteSize = 16)) :
    e.Finds escape attr (trim text) ↔ Entry.KeptText attr text := by
  have htrim : utf8 text = utf8 (trim text) ↔ trim text = text :=
    ⟨fun h => (Utf8.utf8_injective h).symm, fun h => congrArg utf8 h.symm⟩
  rw [finds_iff_eq hescape hattr hvalue, Entry.KeptText, or_iff_right hbytes]
  by_cases hkey : toAsciiLowercase attr = "objectguid"
  · rw [if_pos hkey]
    cases hguid : guidBytes (trim text) with
    | none =>
        rw [Option.getD_none, htrim]
        exact ⟨fun h => ⟨h, fun _ => h ▸ hguid⟩, fun h => h.1⟩
    | some bytes =>
        rw [Option.getD_some]
        constructor
        · intro heq
          have hlen := guidBytes_length hguid
          rw [← heq, length_utf8] at hlen
          exact absurd ⟨hkey, hlen⟩ hbytes
        · rintro ⟨hsame, hnone⟩
          rw [hsame, hnone hkey] at hguid
          exact nomatch hguid
  · rw [if_neg hkey, htrim]
    exact ⟨fun h => ⟨h, fun hguid => absurd hguid hkey⟩, fun h => h.1⟩

/-- **The entry's filter asserts its value exactly for values that are kept.** -/
theorem finds_iff (hescape : Escapes escape) (hattr : '=' ∉ attr.toList) (hs : e.uuid attr = some s) :
    e.Finds escape attr s ↔ e.Kept attr := by
  have huuid : e.uuid attr = match e.firstBinary attr with
      | some bytes => guidString bytes
      | none => (e.first attr).bind fun text =>
          if toAsciiLowercase attr = "objectguid" ∧ text.utf8ByteSize = 16 then guidString (utf8 text)
          else if trim text ≠ "" ∧ (trim text).utf8ByteSize ≤ 512 then some (trim text) else none := by
    rw [Entry.uuid, Entry.firstBinary]
    cases e.first attr <;> rfl
  rw [huuid] at hs
  cases hbin : e.firstBinary attr with
  | some bytes =>
      rw [hbin] at hs
      rw [finds_iff_binary hescape hattr hbin hs, Entry.Kept, hbin]
  | none =>
      rw [hbin] at hs
      obtain ⟨text, htext, hs⟩ := Option.bind_eq_some_iff.mp hs
      have hvalue : e.firstValue attr = some (utf8 text) := by
        rw [Entry.firstValue, hbin, htext]
        rfl
      have hkept : e.Kept attr ↔ Entry.KeptText attr text := by
        rw [Entry.Kept, hbin]
        exact ⟨fun h => h text htext, fun h t ht => Option.some.inj (htext.symm.trans ht) ▸ h⟩
      rw [hkept]
      by_cases hbytes : toAsciiLowercase attr = "objectguid" ∧ text.utf8ByteSize = 16
      · rw [if_pos hbytes] at hs
        rw [finds_iff_eq hescape hattr hvalue, if_pos hbytes.1, guidBytes_guidString hs]
        exact ⟨fun _ => .inl hbytes, fun _ => rfl⟩
      · rw [if_neg hbytes] at hs
        split_ifs at hs with hsize
        rw [← Option.some.inj hs]
        exact finds_iff_trimmed hescape hattr hvalue hbytes

/-- **When directory links find their entries again.**  The filters assert what the entries have, and
entries with other first values have other subjects, exactly when both values are kept; and the text of
sixteen bytes is always read as them. -/
theorem links_find_iff (hescape : Escapes escape) (hattr : checkAttribute attr = .ok ())
    (hs₁ : e₁.uuid attr = some s₁) (hs₂ : e₂.uuid attr = some s₂) (hlen : bytes.length = 16) :
    (guidString bytes).bind guidBytes = some bytes ∧
      ((e₁.Finds escape attr s₁ ∧ e₂.Finds escape attr s₂ ∧
          (e₁.firstValue attr ≠ e₂.firstValue attr → s₁ ≠ s₂)) ↔ e₁.Kept attr ∧ e₂.Kept attr) := by
  have heq := notMem_attr hattr
  obtain ⟨s, hs⟩ := guidString_isSome hlen
  refine ⟨by rw [hs]; exact guidBytes_guidString hs, ?_⟩
  rw [← finds_iff hescape heq hs₁, ← finds_iff hescape heq hs₂]
  constructor
  · rintro ⟨h₁, h₂, -⟩
    exact ⟨h₁, h₂⟩
  · rintro ⟨h₁, h₂⟩
    refine ⟨h₁, h₂, ?_⟩
    rintro hvalues rfl
    obtain ⟨v₁, hv₁, ha₁⟩ := h₁
    obtain ⟨v₂, hv₂, ha₂⟩ := h₂
    rw [ha₁] at ha₂
    exact hvalues (by rw [hv₁, hv₂, (Prod.mk.inj (Option.some.inj ha₂)).2])

/-! ## Entries that are read -/

def searchResult (dn name : String) (values : List (List UInt8)) : StructureTag :=
  .constructed 4 [.primitive 4 (utf8 dn), .constructed 16 [.constructed 16
    [.primitive 4 (utf8 name), .constructed 17 (values.map (.primitive 4))]]]

lemma fromTag_searchResult (dn name : String) (values : List (List UInt8)) (hlen : values.length ≤ MAX_VALUES) :
    Entry.fromTag (searchResult dn name values) =
      some (Entry.insert ⟨dn, fun _ => none, fun _ => none⟩ (toAsciiLowercase name) values) := by
  have hraws : ((values.map (StructureTag.primitive 4)).take MAX_VALUES).mapM StructureTag.expectPrimitive =
      some values := by
    rw [List.take_of_length_le (by rw [List.length_map]; exact hlen), List.mapM_map]
    clear hlen
    induction values with
    | nil => rfl
    | cons v values ih => simp [StructureTag.expectPrimitive, ih]
  simp [Entry.fromTag, searchResult, StructureTag.matchId, StructureTag.expectConstructed,
    Entry.readAttribute, StructureTag.expectPrimitive, hraws]

lemma firstBinary_insert {e : Entry} {name : String} (hname : toAsciiLowercase attr = toAsciiLowercase name)
    (hbinary : fromUtf8 value = none) :
    (e.insert (toAsciiLowercase name) [value]).firstBinary attr = some value := by
  simp [Entry.insert, Entry.sortValues, hbinary, Entry.firstBinary, hname]

def escapeChar (c : Char) : List Char :=
  if c = '\\' ∨ c = '(' ∨ c = ')' ∨ c = '*' ∨ c = '\x00' then '\\' :: hexByte (UInt8.ofNat c.toNat) else [c]

def escapeLiteral (s : String) : String := String.ofList (s.toList.flatMap escapeChar)

lemma unescape_escapeChar (c : Char) (rest : List Char) :
    unescape (escapeChar c ++ rest) = (unescape rest).map (String.utf8EncodeChar c ++ ·) := by
  rw [escapeChar]
  split_ifs with hspecial
  · have hbyte : String.utf8EncodeChar c = [UInt8.ofNat c.toNat] := by
      rcases hspecial with rfl | rfl | rfl | rfl | rfl <;> decide
    rw [List.cons_append, unescape_octet, hbyte]
    rfl
  · rw [List.singleton_append, unescape.eq_def]
    dsimp only
    rw [if_neg fun h => hspecial (.inl h), if_neg fun h => hspecial (.inr h)]

lemma escapes_escapeLiteral : Escapes escapeLiteral := by
  intro s
  rw [escapeLiteral, String.toList_ofList]
  have hutf8 : utf8 s = s.toList.flatMap String.utf8EncodeChar := by
    rw [← Utf8.utf8_ofList, String.ofList_toList]
  rw [hutf8]
  induction s.toList with
  | nil => rfl
  | cons c l ih =>
      rw [List.flatMap_cons, unescape_escapeChar, ih]
      rfl

lemma checkAttribute_guid : checkAttribute "guid" = .ok () := by
  rw [checkAttribute]
  exact if_pos ⟨by decide, by decide⟩

lemma lower_guid : toAsciiLowercase "guid" = "guid" := by
  rw [← String.toList_inj, toList_toAsciiLowercase]
  decide

/-- **A binary value of an attribute with another name is not found again**: sixteen bytes that are not
UTF-8, of an attribute `guid`, are looked for as the text of a GUID. -/
theorem binary_value_not_found :
    ∃ e s, Entry.fromTag (searchResult "cn=ann" "guid" [List.replicate 16 255]) = some e ∧
      checkAttribute "guid" = .ok () ∧ e.uuid "guid" = some s ∧ ¬ e.Finds escapeLiteral "guid" s := by
  have hread := fromTag_searchResult "cn=ann" "guid" [List.replicate 16 255]
    (show 1 ≤ MAX_VALUES by decide)
  generalize hentry : Entry.insert ⟨"cn=ann", fun _ => none, fun _ => none⟩ (toAsciiLowercase "guid")
    [List.replicate 16 255] = e at hread
  have hbin : e.firstBinary "guid" = some (List.replicate 16 255) := by
    rw [← hentry]
    exact firstBinary_insert rfl (by decide)
  obtain ⟨s, hs⟩ := guidString_isSome (show (List.replicate 16 (255 : UInt8)).length = 16 from rfl)
  have huuid : e.uuid "guid" = some s := by
    have hbin' := hbin
    rw [Entry.firstBinary] at hbin'
    rw [Entry.uuid, hbin']
    exact hs
  refine ⟨e, s, hread, checkAttribute_guid, huuid, ?_⟩
  rw [finds_iff_binary escapes_escapeLiteral (notMem_attr checkAttribute_guid) hbin hs, lower_guid]
  decide

/-- An entry with an `objectGUID` that reads as text, or does not. -/
def guidEntry (value : String ⊕ List UInt8) : Entry where
  dn := "cn=ann"
  attrs := fun name => if name = "objectguid" then value.getLeft?.map ([·]) else none
  binAttrs := fun name => if name = "objectguid" then value.getRight?.map ([·]) else none

/-- Of two entries with sixteen bytes for their `objectGUID`, of which one's are letters. -/
theorem links_find_iff_named :
    let e₁ := guidEntry (.inr (List.replicate 16 255))
    let e₂ := guidEntry (.inl "abcdefghijklmnop")
    ∃ s₁ s₂, e₁.uuid "objectGUID" = some s₁ ∧ e₂.uuid "objectGUID" = some s₂ ∧
      e₁.Finds escapeLiteral "objectGUID" s₁ ∧ e₂.Finds escapeLiteral "objectGUID" s₂ ∧ s₁ ≠ s₂ := by
  intro e₁ e₂
  have hattr : checkAttribute "objectGUID" = .ok () := by
    rw [checkAttribute]
    exact if_pos ⟨by decide, by decide⟩
  have hlower : toAsciiLowercase "objectGUID" = "objectguid" := eqIgnoreAsciiCase_objectGUID.mp (by decide)
  obtain ⟨s₁, hs₁⟩ := guidString_isSome (show (List.replicate 16 (255 : UInt8)).length = 16 from rfl)
  obtain ⟨s₂, hs₂⟩ := guidString_isSome (show (utf8 "abcdefghijklmnop").length = 16 by decide)
  have h₁ : e₁.uuid "objectGUID" = some s₁ := by
    rw [Entry.uuid, hlower]
    exact hs₁
  have hfirst : e₂.first "objectGUID" = some "abcdefghijklmnop" := by
    rw [Entry.first, Entry.values, hlower]
    rfl
  have h₂ : e₂.uuid "objectGUID" = some s₂ := by
    rw [Entry.uuid, hlower, hfirst]
    exact hs₂
  have hkept₁ : e₁.Kept "objectGUID" := by
    rw [Entry.Kept, Entry.firstBinary, hlower]
    rfl
  have hkept₂ : e₂.Kept "objectGUID" := by
    rw [Entry.Kept, Entry.firstBinary, hlower]
    intro text htext
    obtain rfl := Option.some.inj (hfirst.symm.trans htext)
    exact .inl ⟨hlower, by decide⟩
  obtain ⟨hfinds₁, hfinds₂, hne⟩ :=
    (links_find_iff escapes_escapeLiteral hattr h₁ h₂ (List.length_replicate (a := (0 : UInt8)))).2.mpr
      ⟨hkept₁, hkept₂⟩
  refine ⟨s₁, s₂, h₁, h₂, hfinds₁, hfinds₂, hne ?_⟩
  rw [Entry.firstValue, Entry.firstValue, Entry.firstBinary, Entry.firstBinary, hfirst, hlower]
  decide

end Ridm.Ldap.Search
