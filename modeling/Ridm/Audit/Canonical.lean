import Ridm.Core.Types
import Ridm.Core.Uuid128

/-!
# What an audit row's hash covers

`crates/ridm-core/src/audit_chain.rs`, first half: the canonical text of a row, its bytes, and the
hash `SHA-256(prev || canonical)`.  The hash function and the printer of instants are not part of
the repository; `Primitives` holds them.

The eleven fields are joined by `|`, which nothing escapes, an absent value is the empty text, and
an impersonator is appended behind the payload.  So the bytes do not determine the row
(`canonical_conflates_rows`).  What they do determine: as long as the name, the actor type and the
ip have no `|`, every field up to "absent is empty" and "no tenant is the nil tenant"
(`canonical_determines_fields`), whatever the user agent holds, since the payload behind it is a
JSON text.
-/

namespace Ridm.Audit

/-- Byte strings, as lists of bytes. -/
abbrev Bytes := List UInt8

/-- The parts of other crates the chain uses. -/
structure Primitives where
  sha256 : Bytes → Bytes
  /-- `to_rfc3339_opts(SecondsFormat::Micros, true)` of an instant given in microseconds. -/
  rfc3339 : ℤ → List Char

/-- What `chrono` documents of the printed instant: no two instants print the same, and the text
is made of digits and `-:.+TZ`. -/
structure Primitives.PrintsInstants (P : Primitives) : Prop where
  injective : Function.Injective P.rfc3339
  plain : ∀ t, '|' ∉ P.rfc3339 t

/-- `chain_id`: the chain a tenant's rows belong to. -/
def chainId (tenantId : Option Uuid128) : Uuid128 := tenantId.getD Uuid128.nil

/-- `CanonicalRow`: the fields of a row the hash covers. -/
structure CanonicalRow where
  id : Uuid128
  tenantId : Option Uuid128
  seq : ℤ
  occurredAt : Instant
  name : String
  actorType : String
  actorId : Option Uuid128
  subjectId : Option Uuid128
  impersonatorId : Option Uuid128
  ip : Option String
  userAgent : Option String
  payload : JsonValue
  deriving DecidableEq

def micros (t : Instant) : ℤ := t / 1000

/-- `opt`: the text of a UUID, empty when there is none. -/
def optText (u : Option Uuid128) : List Char := (u.map Uuid128.text).getD []

/-- The suffix of a row that has an impersonator. -/
def impersonatorText : Option Uuid128 → List Char
  | some imp => "|impersonator:".toList ++ imp.text
  | none => []

lemma impersonatorText_none : impersonatorText none = [] := rfl

lemma impersonatorText_some (u : Uuid128) :
    impersonatorText (some u) = "|impersonator:".toList ++ u.text := rfl

/-- The text of a row. -/
def canonicalText (P : Primitives) (row : CanonicalRow) : List Char :=
  row.id.text ++ ('|' :: ((chainId row.tenantId).text ++ ('|' :: ((toString row.seq).toList ++
    ('|' :: (P.rfc3339 (micros row.occurredAt) ++ ('|' :: (row.name.toList ++
      ('|' :: (row.actorType.toList ++ ('|' :: (optText row.actorId ++
        ('|' :: (optText row.subjectId ++ ('|' :: ((row.ip.getD "").toList ++
          ('|' :: ((row.userAgent.getD "").toList ++ ('|' :: (row.payload.value.text ++
            impersonatorText row.impersonatorId))))))))))))))))))))

/-- `String::into_bytes`. -/
def utf8 (s : List Char) : Bytes := s.flatMap String.utf8EncodeChar

/-- `canonical`: the bytes the hash covers. -/
def canonical (P : Primitives) (row : CanonicalRow) : Bytes := utf8 (canonicalText P row)

/-- `hash`: `SHA-256(prev || canonical(row))`. -/
def hash (P : Primitives) (prev : Option Bytes) (row : CanonicalRow) : Bytes :=
  P.sha256 (prev.getD [] ++ canonical P row)

/-! ## Cutting the text into its fields -/

lemma utf8_inj {s t : List Char} (h : utf8 s = utf8 t) : s = t := by
  have henc : s.utf8Encode = t.utf8Encode := by
    simp only [utf8] at h
    rw [List.utf8Encode, List.utf8Encode, h]
  have hof : String.ofList s = String.ofList t := by
    rw [← String.toByteArray_inj, String.toByteArray_ofList, String.toByteArray_ofList, henc]
  exact String.ofList_injective hof

lemma field_append_inj {a b s t : List Char} (ha : '|' ∉ a) (hb : '|' ∉ b)
    (h : a ++ '|' :: s = b ++ '|' :: t) : a = b ∧ s = t := by
  induction a generalizing b with
  | nil =>
      cases b with
      | nil => simpa using h
      | cons d b =>
          simp only [List.nil_append, List.cons_append, List.cons.injEq] at h
          exact absurd (h.1 ▸ List.mem_cons_self) hb
  | cons c a ih =>
      cases b with
      | nil =>
          simp only [List.nil_append, List.cons_append, List.cons.injEq] at h
          exact absurd (h.1 ▸ List.mem_cons_self) ha
      | cons d b =>
          simp only [List.cons_append, List.cons.injEq] at h
          obtain ⟨rfl, hst⟩ := ih (fun hc => ha (List.mem_cons_of_mem _ hc))
            (fun hc => hb (List.mem_cons_of_mem _ hc)) h.2
          exact ⟨by rw [h.1], hst⟩

lemma bar_notMem_uuid (u : Uuid128) : '|' ∉ u.text := u.notMem_text rfl

lemma bar_notMem_optText (u : Option Uuid128) : '|' ∉ optText u := by
  cases u with
  | none => simp [optText]
  | some u => exact bar_notMem_uuid u

lemma optText_inj {u v : Option Uuid128} (h : optText u = optText v) : u = v := by
  have hlen := congrArg List.length h
  cases u with
  | none =>
      cases v with
      | none => rfl
      | some v => simp [optText] at hlen
  | some u =>
      cases v with
      | none => simp [optText] at hlen
      | some v => exact congrArg some (Uuid128.text_inj h)

lemma natRepr_inj {m n : ℕ} (h : m.repr.toList = n.repr.toList) : m = n := by
  rw [natRepr_toList, natRepr_toList] at h
  rw [← Nat.ofDigitChars_ten_toDigits (n := m), h, Nat.ofDigitChars_ten_toDigits]

lemma bar_notMem_seq (n : ℤ) : '|' ∉ (toString n).toList := by
  rw [intText_toList]
  split_ifs with hn
  · intro h
    exact absurd (isDigit_natRepr h) (by decide)
  · rintro (_ | ⟨_, h⟩)
    exact absurd (isDigit_natRepr h) (by decide)

lemma seq_text_inj {m n : ℤ} (h : (toString m).toList = (toString n).toList) : m = n := by
  -- a hyphen is not a digit, so the two numbers have one sign
  have hsign : ∀ {a b : ℕ}, a.repr.toList ≠ '-' :: b.repr.toList := by
    intro a b hab
    have hmem : '-' ∈ a.repr.toList := by
      rw [hab]
      exact List.mem_cons_self
    exact absurd (isDigit_natRepr hmem) (by decide)
  rw [intText_toList, intText_toList] at h
  split_ifs at h with hm hn hn
  · have := natRepr_inj h
    omega
  · exact absurd h hsign
  · exact absurd h.symm hsign
  · have := natRepr_inj (List.cons.inj h).2
    omega

lemma utf8_cons (c : Char) (l : List Char) : utf8 (c :: l) = String.utf8EncodeChar c ++ utf8 l :=
  List.flatMap_cons

lemma utf8_uuid {l : List Char} (h : ∀ c ∈ l, isUuidChar c = true) :
    (utf8 l).length = l.length ∧ (124 : UInt8) ∉ utf8 l := by
  induction l with
  | nil => exact ⟨rfl, by simp [utf8]⟩
  | cons c l ih =>
      obtain ⟨hlen, hbar⟩ := ih (fun d hd => h d (List.mem_cons_of_mem _ hd))
      have hc := isUuidChar_toNat (h c List.mem_cons_self)
      have hbyte : String.utf8EncodeChar c = [UInt8.ofNat c.toNat] := by
        show (if c.toNat ≤ 0x7f then _ else _) = _
        rw [if_pos (by omega)]
        rfl
      have hne : (124 : UInt8) ≠ UInt8.ofNat c.toNat := by
        intro heq
        have := congrArg UInt8.toNat heq
        rw [UInt8.toNat_ofNat', Nat.mod_eq_of_lt (by omega)] at this
        have h124 : (124 : UInt8).toNat = 124 := rfl
        omega
      rw [utf8_cons, hbyte, List.singleton_append]
      exact ⟨by rw [List.length_cons, List.length_cons, hlen], by
        rw [List.mem_cons, not_or]
        exact ⟨hne, hbar⟩⟩

lemma canonical_head (P : Primitives) (r : CanonicalRow) :
    ∃ front rest, canonical P r = front ++ 124 :: rest ∧ front.length = 36 ∧
      (124 : UInt8) ∉ front := by
  obtain ⟨hlen, hbar⟩ := utf8_uuid r.id.isUuidChar_text
  obtain ⟨rest, hrest⟩ : ∃ rest, canonicalText P r = r.id.text ++ '|' :: rest := ⟨_, rfl⟩
  refine ⟨utf8 r.id.text, utf8 rest, ?_, by rw [hlen, Uuid128.length_text], hbar⟩
  rw [canonical, hrest, utf8, List.flatMap_append]
  rfl

/-! ## The user agent, the payload and the impersonator -/

lemma impersonator_plain (u : Uuid128) :
    ∀ c ∈ "impersonator:".toList ++ u.text, c ≠ '"' ∧ c ≠ '\\' ∧ c ≠ '|' := by
  intro c hc
  rcases List.mem_append.mp hc with hc | hc
  · have hall : ("impersonator:".toList.all fun c => decide (c ≠ '"' ∧ c ≠ '\\' ∧ c ≠ '|')) = true := by
      decide
    exact of_decide_eq_true (List.all_eq_true.mp hall c hc)
  · have hchar := u.isUuidChar_text c hc
    refine ⟨?_, ?_, ?_⟩ <;> rintro rfl <;> exact absurd hchar (by decide)

lemma text_ne_impersonated (x y : JsonValue) (a b : List Char) (v : Uuid128) :
    a ++ '|' :: x.value.text ≠ b ++ '|' :: (y.value.text ++ ("|impersonator:".toList ++ v.text)) := by
  intro h
  have hplain := impersonator_plain v
  have h' : a ++ '|' :: x.value.text =
      (b ++ '|' :: y.value.text) ++ '|' :: ("impersonator:".toList ++ v.text) := by
    rw [h, List.append_assoc]
    rfl
  have hstart : x.value.text ≠ "impersonator:".toList ++ v.text := by
    have hne := Value.text_ne_of_lead (s := []) (t := "mpersonator:".toList ++ v.text)
      x.numbersPlain (show Value.isLead 'i' = false from rfl)
    rwa [List.append_nil] at hne
  rcases List.append_eq_append_iff.mp h' with ⟨c, -, hx⟩ | ⟨c, -, hx⟩
  · cases c with
    | nil => exact hstart (List.cons.inj hx).2
    | cons d c =>
        -- the payload starts before the suffix, so it would end with it
        exact Value.text_ne_bar_suffix x.numbersPlain
          (fun e he => ⟨(hplain e he).1, (hplain e he).2.1⟩) (List.cons.inj hx).2
  · cases c with
    | nil => exact hstart (List.cons.inj hx).2.symm
    | cons d c =>
        -- the payload starts behind a bar of the suffix, which has only the first one
        have hmem : '|' ∈ "impersonator:".toList ++ v.text := by
          rw [(List.cons.inj hx).2]
          simp
        exact (hplain _ hmem).2.2 rfl

/-- The tail of a row's text: whatever stands before the payload, the payload and the
impersonator can be told apart. -/
lemma tail_inj {a b : List Char} {x y : JsonValue} {i j : Option Uuid128}
    (h : a ++ '|' :: (x.value.text ++ impersonatorText i) =
      b ++ '|' :: (y.value.text ++ impersonatorText j)) : a = b ∧ x = y ∧ i = j := by
  cases i with
  | none =>
      cases j with
      | none =>
          simp only [impersonatorText_none, List.append_nil] at h
          obtain ⟨hab, hxy⟩ := Value.bar_text_inj x.numbersPlain y.numbersPlain h
          exact ⟨hab, JsonValue.ext hxy, rfl⟩
      | some v =>
          simp only [impersonatorText_none, impersonatorText_some, List.append_nil] at h
          exact absurd h (text_ne_impersonated x y a b v)
  | some u =>
      cases j with
      | none =>
          simp only [impersonatorText_none, impersonatorText_some, List.append_nil] at h
          exact absurd h.symm (text_ne_impersonated y x b a u)
      | some v =>
          simp only [impersonatorText_some, ← List.append_assoc, ← List.cons_append] at h
          obtain ⟨hfront, huv⟩ := List.append_inj' h (by simp)
          obtain ⟨hfront, -⟩ := List.append_inj' hfront rfl
          obtain ⟨hab, hxy⟩ := Value.bar_text_inj x.numbersPlain y.numbersPlain hfront
          exact ⟨hab, JsonValue.ext hxy, congrArg some (Uuid128.text_inj huv)⟩

/-! ## Which rows read the same -/

/-- Two rows say the same: an absent ip or user agent counts as an empty one, no tenant as the
nil tenant, and the time to the microsecond. -/
def CanonicalRow.SameFields (r r' : CanonicalRow) : Prop :=
  r.id = r'.id ∧ chainId r.tenantId = chainId r'.tenantId ∧ r.seq = r'.seq ∧
    micros r.occurredAt = micros r'.occurredAt ∧ r.name = r'.name ∧ r.actorType = r'.actorType ∧
    r.actorId = r'.actorId ∧ r.subjectId = r'.subjectId ∧
    r.impersonatorId = r'.impersonatorId ∧ r.ip.getD "" = r'.ip.getD "" ∧
    r.userAgent.getD "" = r'.userAgent.getD "" ∧ r.payload = r'.payload

/-- The fields in front of the user agent have no separator of their own. -/
structure CanonicalRow.NoBars (r : CanonicalRow) : Prop where
  name : '|' ∉ r.name.toList
  actorType : '|' ∉ r.actorType.toList
  ip : '|' ∉ (r.ip.getD "").toList

/-- **The bytes determine the fields**, up to what is empty, when no `|` stands in the name, the
actor type and the ip.  The user agent may hold any text. -/
theorem canonical_determines_fields (P : Primitives) (hP : P.PrintsInstants)
    (r r' : CanonicalRow) (hr : r.NoBars) (hr' : r'.NoBars)
    (h : canonical P r = canonical P r') : r.SameFields r' := by
  have htext := utf8_inj h
  unfold canonicalText at htext
  obtain ⟨hid, htext⟩ := field_append_inj (bar_notMem_uuid _) (bar_notMem_uuid _) htext
  obtain ⟨hchain, htext⟩ := field_append_inj (bar_notMem_uuid _) (bar_notMem_uuid _) htext
  obtain ⟨hseq, htext⟩ := field_append_inj (bar_notMem_seq _) (bar_notMem_seq _) htext
  obtain ⟨htime, htext⟩ := field_append_inj (hP.plain _) (hP.plain _) htext
  obtain ⟨hname, htext⟩ := field_append_inj hr.name hr'.name htext
  obtain ⟨htype, htext⟩ := field_append_inj hr.actorType hr'.actorType htext
  obtain ⟨hactor, htext⟩ := field_append_inj (bar_notMem_optText _) (bar_notMem_optText _) htext
  obtain ⟨hsubject, htext⟩ := field_append_inj (bar_notMem_optText _) (bar_notMem_optText _) htext
  obtain ⟨hip, htext⟩ := field_append_inj hr.ip hr'.ip htext
  obtain ⟨hagent, hpayload, himp⟩ := tail_inj htext
  exact ⟨Uuid128.text_inj hid, Uuid128.text_inj hchain, seq_text_inj hseq, hP.injective htime,
    String.toList_inj.mp hname, String.toList_inj.mp htype, optText_inj hactor,
    optText_inj hsubject, himp, String.toList_inj.mp hip, String.toList_inj.mp hagent, hpayload⟩

def sampleRfc3339 (t : ℤ) : List Char :=
  if t = 1700000000000000 then "2023-11-14T22:13:20.000000Z".toList else (toString t).toList

lemma sampleRfc3339_prints (f : Bytes → Bytes) :
    Primitives.PrintsInstants ⟨f, sampleRfc3339⟩ := by
  have hsample : ∀ t : ℤ, (toString t).toList ≠ "2023-11-14T22:13:20.000000Z".toList := by
    intro t h
    have hmem : 'T' ∈ (toString t).toList := by
      rw [h]
      decide
    rw [intText_toList] at hmem
    split_ifs at hmem with ht
    · exact absurd (isDigit_natRepr hmem) (by decide)
    · rcases List.mem_cons.mp hmem with hmem | hmem
      · exact absurd hmem (by decide)
      · exact absurd (isDigit_natRepr hmem) (by decide)
  constructor
  · intro s t h
    simp only [sampleRfc3339] at h
    split_ifs at h with hs ht ht
    · omega
    · exact absurd h.symm (hsample t)
    · exact absurd h (hsample s)
    · exact seq_text_inj h
  · intro t
    show '|' ∉ sampleRfc3339 t
    rw [sampleRfc3339]
    split_ifs with ht
    · decide
    · exact bar_notMem_seq t

def sampleRow : CanonicalRow where
  id := 0x018bcfe5680070008000000000000001#128
  tenantId := none
  seq := 1
  occurredAt := 1700000000000000000
  name := "user.created"
  actorType := "system"
  actorId := none
  subjectId := none
  impersonatorId := none
  ip := some "10.0.0.1"
  userAgent := some "curl/8.5"
  payload := ⟨.object [], rfl⟩

def barRow : CanonicalRow := { sampleRow with userAgent := some "a|b" }

def movedBarRow : CanonicalRow :=
  { sampleRow with ip := some "10.0.0.1|a", userAgent := some "b" }

def absentIpRow : CanonicalRow := { sampleRow with ip := none, userAgent := some "a|b|\x7b\x7d" }

def emptyIpRow : CanonicalRow := { absentIpRow with ip := some "" }

/-- Two rows that differ in what counts as empty, their user agents full of bars. -/
theorem canonical_determines_fields_absent_ip : absentIpRow.SameFields emptyIpRow :=
  canonical_determines_fields ⟨id, sampleRfc3339⟩ (sampleRfc3339_prints id) _ _
    ⟨by decide, by decide, by decide⟩ ⟨by decide, by decide, by decide⟩ rfl

/-- **The bytes do not determine the row.**  A bar moves between the user agent and the ip, and
an absent ip turns into an empty one, without a change of the bytes. -/
theorem canonical_conflates_rows :
    (canonical ⟨id, sampleRfc3339⟩ barRow = canonical ⟨id, sampleRfc3339⟩ movedBarRow ∧
      barRow.ip ≠ movedBarRow.ip ∧ barRow.userAgent ≠ movedBarRow.userAgent) ∧
    (canonical ⟨id, sampleRfc3339⟩ absentIpRow = canonical ⟨id, sampleRfc3339⟩ emptyIpRow ∧
      absentIpRow.ip ≠ emptyIpRow.ip) :=
  ⟨⟨rfl, by decide, by decide⟩, ⟨rfl, by decide⟩⟩

end Ridm.Audit
