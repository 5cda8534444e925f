import Ridm.Lib.BigEndian
import Ridm.Lib.FrontReader
import Ridm.Lib.Utf8

/-!
# CBOR

The decoder of `api/src/webauthn/cbor.rs`: one item from the front of a byte string, of definite lengths and
nested at most `MAX_DEPTH` deep.

`Encodes` says what a value may be written as: each head in any of the widths that hold its argument.  The
decoder reads every such spelling, whatever follows it (`reads_item`), and what it reads it would read
whatever followed (`cuts_item`).  The second is not plain from the code: a length is compared with all that
is left, so an item of `n` elements must itself be `n` bytes long.
-/

namespace Ridm.Webauthn

/-- A CBOR item. -/
inductive Value
  | int (i : ℤ)
  | bytes (bytes : List UInt8)
  | text (text : String)
  | array (items : List Value)
  | map (entries : List (Value × Value))
  | bool (b : Bool)
  | null
  | other

/-- Why an item is refused. -/
structure CborError where
  reason : String

/-- A reader of bytes. -/
abbrev Reader (α : Type) := FrontReader CborError UInt8 α

def MAX_DEPTH : ℕ := 16

/-- `Reader::take`. -/
def take (n : ℕ) : Reader (List UInt8) := FrontReader.take ⟨"truncated"⟩ n

/-- `Reader::byte`. -/
def byte : Reader UInt8 := do
  let bytes ← take 1
  pure (bytes.headD 0)

/-- `Reader::argument`: 0 to 23 stand in the head, 24 to 27 for the next 1, 2, 4 or 8 bytes. -/
def argument (info : ℕ) : Reader ℕ :=
  if info ≤ 23 then pure info
  else if info ≤ 27 then do
    let bytes ← take (2 ^ (info - 24))
    pure (BigEndian.toNat bytes)
  else throw ⟨"indefinite or reserved length"⟩

/-- What a length is followed by: `Reader::length`, which must fit in what is left, and the reader of so
many. -/
def counted {α : Type} (info : ℕ) (body : ℕ → Reader α) : Reader α := do
  let n ← argument info
  FrontReader.within ⟨"length past the end"⟩ n
  body n

def simple (info : ℕ) : Reader Value :=
  if info = 20 then pure (.bool false)
  else if info = 21 then pure (.bool true)
  else if info = 22 then pure .null
  else if info ≤ 23 then pure .other
  else if info ≤ 27 then do
    let _ ← take (2 ^ (info - 24))
    pure .other
  else throw ⟨"indefinite or reserved simple value"⟩

/-- `str::from_utf8`. -/
def utf8Text (bytes : List UInt8) : Reader Value :=
  match Utf8.fromUtf8 bytes with
  | some text => pure (.text text)
  | none => throw ⟨"text is not UTF-8"⟩

/-- What stands behind the head of an item, by its major type; `item` reads the items in it. -/
def content (item : Reader Value) (major info : ℕ) : Reader Value :=
  match major with
  | 0 => do
      let n ← argument info
      pure (.int n)
  | 1 => do
      let n ← argument info
      pure (.int (-1 - n))
  | 2 => counted info fun n => do
      let bytes ← take n
      pure (.bytes bytes)
  | 3 => counted info fun n => do
      let bytes ← take n
      utf8Text bytes
  | 4 => counted info fun n => do
      let items ← FrontReader.times item n
      pure (.array items)
  | 5 => counted info fun n => do
      let entries ← FrontReader.times (do
        let k ← item
        let v ← item
        pure (k, v)) n
      pure (.map entries)
  | 6 => do
      let _ ← argument info
      let _ ← item
      pure .other
  | _ => simple info

/-- `Reader::item`, with so many levels left: at the depth `MAX_DEPTH + 1` there are none. -/
def itemIn : ℕ → Reader Value
  | 0 => throw ⟨"nested too deeply"⟩
  | left + 1 => do
      let head ← byte
      content (itemIn left) (head >>> 5).toNat (head &&& 0x1f).toNat

/-- `Reader::item`. -/
def item (depth : ℕ) : Reader Value := itemIn (MAX_DEPTH + 1 - depth)

def decode (input : List UInt8) : Except CborError (Value × List UInt8) := item 0 input

def decodeExact (input : List UInt8) : Except CborError Value := do
  let (v, rest) ← decode input
  if rest.isEmpty then pure v else throw ⟨"trailing data"⟩

/-! ## What a value may be written as -/

/-- A head: the major type with its argument in the same byte, or in the 1, 2, 4 or 8 bytes behind it. -/
inductive Head (major n : ℕ) : List UInt8 → Prop
  | inline (h : n ≤ 23) : Head major n [UInt8.ofNat (32 * major + n)]
  | wide (k : ℕ) (hk : k < 4) (h : n < 256 ^ 2 ^ k) :
      Head major n (UInt8.ofNat (32 * major + (24 + k)) :: BigEndian.ofNat (2 ^ k) n)

mutual

/-- The spellings of a value. -/
def Encodes : Value → List UInt8 → Prop
  | .int i, w => (∃ n : ℕ, i = n ∧ Head 0 n w) ∨ ∃ n : ℕ, i = -1 - n ∧ Head 1 n w
  | .bytes b, w => ∃ h, Head 2 b.length h ∧ w = h ++ b
  | .text t, w => ∃ h, Head 3 (Utf8.utf8 t).length h ∧ w = h ++ Utf8.utf8 t
  | .array vs, w => ∃ h u, Head 4 vs.length h ∧ EncodesAll vs u ∧ w = h ++ u
  | .map es, w => ∃ h u, Head 5 es.length h ∧ EncodesEntries es u ∧ w = h ++ u
  | .bool b, w => w = [if b then 0xf5 else 0xf4]
  | .null, w => w = [0xf6]
  | .other, _ => False

/-- The spellings of values, one after another. -/
def EncodesAll : List Value → List UInt8 → Prop
  | [], w => w = []
  | v :: vs, w => ∃ u u', Encodes v u ∧ EncodesAll vs u' ∧ w = u ++ u'

/-- The spellings of entries, one after another. -/
def EncodesEntries : List (Value × Value) → List UInt8 → Prop
  | [], w => w = []
  | (k, v) :: es, w => ∃ u u' u'', Encodes k u ∧ Encodes v u' ∧ EncodesEntries es u'' ∧ w = u ++ (u' ++ u'')

end

mutual

/-- How many arrays and maps stand around a part of a value, at most. -/
def nesting : Value → ℕ
  | .array vs => nestingAll vs
  | .map es => nestingEntries es
  | _ => 0

/-- So for the items of an array. -/
def nestingAll : List Value → ℕ
  | [] => 0
  | v :: vs => max (nesting v + 1) (nestingAll vs)

/-- So for the entries of a map. -/
def nestingEntries : List (Value × Value) → ℕ
  | [] => 0
  | (k, v) :: es => max (max (nesting k + 1) (nesting v + 1)) (nestingEntries es)

end

/-! ## What an item is cut off at -/

open FrontReader (Reads Cuts)

variable {r : Reader Value} {v : Value} {w : List UInt8} {major info n left : ℕ}

lemma cuts_byte : Cuts 1 byte :=
  (FrontReader.cuts_take _ 1).bind_left fun _ => Cuts.pure _

lemma cuts_argument (info : ℕ) : Cuts 0 (argument info) := by
  rw [argument]
  split_ifs
  · exact Cuts.pure _
  · exact ((FrontReader.cuts_take _ _).bind_left fun _ => Cuts.pure _).mono (Nat.zero_le _)
  · exact Cuts.throw 0 _

variable {body : ℕ → Reader Value} {h u : List UInt8} {α : Type}

lemma cuts_counted {body : ℕ → Reader α} (h : ∀ n, Cuts n (body n)) : Cuts 0 (counted info body) :=
  (cuts_argument info).bind_left fun n => ((h n).within _).mono (Nat.zero_le n)

lemma cuts_simple (info : ℕ) : Cuts 0 (simple info) := by
  rw [simple]
  split_ifs
  · exact Cuts.pure _
  · exact Cuts.pure _
  · exact Cuts.pure _
  · exact Cuts.pure _
  · exact ((FrontReader.cuts_take _ _).bind_left fun _ => Cuts.pure _).mono (Nat.zero_le _)
  · exact Cuts.throw 0 _

lemma cuts_utf8Text (bytes : List UInt8) : Cuts 0 (utf8Text bytes) := by
  rw [utf8Text]
  cases Utf8.fromUtf8 bytes with
  | none => exact Cuts.throw 0 _
  | some text => exact Cuts.pure _

lemma cuts_times {r : Reader α} (hr : Cuts 1 r) (n : ℕ) : Cuts n (FrontReader.times r n) :=
  (hr.times n).mono (Nat.le_of_eq (Nat.mul_one n).symm)

lemma cuts_content (hr : Cuts 1 r) : Cuts 0 (content r major info) := by
  rw [content.eq_def]
  split
  · exact (cuts_argument info).bind_left fun _ => Cuts.pure _
  · exact (cuts_argument info).bind_left fun _ => Cuts.pure _
  · exact cuts_counted fun n => (FrontReader.cuts_take _ n).bind_left fun _ => Cuts.pure _
  · exact cuts_counted fun n => (FrontReader.cuts_take _ n).bind_left fun _ => cuts_utf8Text _
  · exact cuts_counted fun n => (cuts_times hr n).bind_left fun _ => Cuts.pure _
  · have hentry : Cuts 1 (do
        let k ← r
        let v ← r
        pure (k, v)) :=
      hr.bind_left fun _ => (hr.bind_left fun _ => Cuts.pure _).mono (Nat.zero_le 1)
    exact cuts_counted fun n => (cuts_times hentry n).bind_left fun _ => Cuts.pure _
  · exact (cuts_argument info).bind_left fun _ =>
      (hr.bind_left fun _ => Cuts.pure _).mono (Nat.zero_le 1)
  · exact cuts_simple info

/-- **What an item is read from**, it is read from whatever follows. -/
theorem cuts_itemIn (left : ℕ) : Cuts 1 (itemIn left) := by
  induction left with
  | zero => exact Cuts.throw 1 _
  | succ left ih => exact cuts_byte.bind_left fun _ => cuts_content ih

/-! ## Every spelling is read -/

lemma reads_byte (b : UInt8) : Reads byte [b] b :=
  Reads.bind_pure (FrontReader.reads_take (⟨"truncated"⟩ : CborError) [b])

lemma head_parts : ∀ major < 8, ∀ info < 32,
    (UInt8.ofNat (32 * major + info) >>> 5).toNat = major ∧
      (UInt8.ofNat (32 * major + info) &&& 0x1f).toNat = info := by
  decide +kernel

lemma reads_argument_wide {k : ℕ} (hk : k < 4) (h : n < 256 ^ 2 ^ k) :
    Reads (argument (24 + k)) (BigEndian.ofNat (2 ^ k) n) n := by
  have htake := FrontReader.reads_take (⟨"truncated"⟩ : CborError) (BigEndian.ofNat (2 ^ k) n)
  rw [BigEndian.length_ofNat] at htake
  have hbytes := Reads.bind_pure (g := BigEndian.toNat) htake
  rw [BigEndian.toNat_ofNat_of_lt h] at hbytes
  rw [argument, if_neg (by omega), if_pos (by omega), Nat.add_sub_cancel_left]
  exact hbytes

/-- **A head**, and what is read behind it with its argument. -/
lemma reads_head (hmajor : major < 8) (hhead : Head major n h)
    (hcontent : ∀ info, content (itemIn left) major info = argument info >>= body)
    (hbody : Reads (body n) u v) : Reads (itemIn (left + 1)) (h ++ u) v := by
  cases hhead with
  | inline hn =>
      obtain ⟨hm, hi⟩ := head_parts major hmajor n (by omega)
      refine Reads.bind (reads_byte _) ?_
      rw [hm, hi, hcontent, argument, if_pos hn]
      exact Reads.bind_nil (Reads.pure n) hbody
  | wide k hk hlt =>
      obtain ⟨hm, hi⟩ := head_parts major hmajor (24 + k) (by omega)
      rw [← List.singleton_append, List.append_assoc]
      refine Reads.bind (reads_byte _) ?_
      rw [hm, hi, hcontent]
      exact Reads.bind (reads_argument_wide hk hlt) hbody

lemma reads_counted (hmajor : major < 8) (hhead : Head major n h)
    (hcontent : ∀ info, content (itemIn left) major info = counted info body) (hcuts : Cuts n (body n))
    (hbody : Reads (body n) u v) : Reads (itemIn (left + 1)) (h ++ u) v :=
  reads_head hmajor hhead hcontent (hbody.within _ (hcuts.le_length hbody))

lemma reads_single {b : UInt8}
    (h : content (itemIn left) (b >>> 5).toNat (b &&& 0x1f).toNat = pure v) :
    Reads (itemIn (left + 1)) [b] v := by
  have hread : Reads (itemIn (left + 1)) ([b] ++ []) v := by
    refine Reads.bind (reads_byte b) ?_
    rw [h]
    exact Reads.pure v
  rwa [List.append_nil] at hread

lemma reads_all (hitem : ∀ v w, nesting v < left → Encodes v w → Reads r w v) :
    ∀ vs u, nestingAll vs ≤ left → EncodesAll vs u → Reads (FrontReader.times r vs.length) u vs
  | [], u, _, h => by
      obtain rfl := h
      exact Reads.pure []
  | v :: vs, u, hdeep, h => by
      obtain ⟨w, u', hv, hvs, rfl⟩ := h
      rw [nestingAll] at hdeep
      have hread := hitem v w (by omega) hv
      exact hread.bind (reads_all hitem vs u' (by omega) hvs).bind_pure

lemma reads_entries (hitem : ∀ v w, nesting v < left → Encodes v w → Reads r w v) :
    ∀ es u, nestingEntries es ≤ left → EncodesEntries es u →
      Reads (FrontReader.times (do
        let k ← r
        let v ← r
        pure (k, v)) es.length) u es
  | [], u, _, h => by
      obtain rfl := h
      exact Reads.pure []
  | (k, v) :: es, u, hdeep, h => by
      obtain ⟨w, w', u', hk, hv, hes, rfl⟩ := h
      rw [nestingEntries] at hdeep
      have hkey := hitem k w (by omega) hk
      have hvalue := hitem v w' (by omega) hv
      have hentry : Reads (do
          let k ← r
          let v ← r
          pure (k, v)) (w ++ w') (k, v) :=
        hkey.bind (f := fun k => r >>= fun v => pure (k, v)) hvalue.bind_pure
      rw [← List.append_assoc]
      exact hentry.bind (reads_entries hitem es u' (by omega) hes).bind_pure

/-- **An item is read**, from every spelling of it and whatever follows, where there are as many levels left
as it is nested. -/
theorem reads_itemIn : ∀ left v w, nesting v < left → Encodes v w → Reads (itemIn left) w v := by
  intro left
  induction left with
  | zero => exact fun v w h => absurd h (Nat.not_lt_zero _)
  | succ left ih =>
      intro v w hdeep h
      cases v with
      | int i =>
          rw [← List.append_nil w]
          rcases h with ⟨n, rfl, hhead⟩ | ⟨n, rfl, hhead⟩
          · exact reads_head (by decide) hhead (fun _ => rfl) (Reads.pure _)
          · exact reads_head (by decide) hhead (fun _ => rfl) (Reads.pure _)
      | bytes b =>
          obtain ⟨h, hhead, rfl⟩ := h
          exact reads_counted (by decide) hhead (fun _ => rfl)
            ((FrontReader.cuts_take _ _).bind_left fun _ => Cuts.pure _) (FrontReader.reads_take _ b).bind_pure
      | text t =>
          obtain ⟨h, hhead, rfl⟩ := h
          refine reads_counted (by decide) hhead (fun _ => rfl)
            ((FrontReader.cuts_take _ _).bind_left fun _ => cuts_utf8Text _) ?_
          have htext : Reads (utf8Text (Utf8.utf8 t)) [] (Value.text t) := by
            rw [utf8Text, Utf8.fromUtf8_utf8]
            exact Reads.pure _
          have hread : Reads (take (Utf8.utf8 t).length >>= utf8Text) (Utf8.utf8 t ++ []) (Value.text t) :=
            (FrontReader.reads_take _ (Utf8.utf8 t)).bind htext
          rwa [List.append_nil] at hread
      | array vs =>
          obtain ⟨h, u, hhead, hall, rfl⟩ := h
          exact reads_counted (by decide) hhead (fun _ => rfl)
            ((cuts_times (cuts_itemIn left) _).bind_left fun _ => Cuts.pure _)
            (reads_all ih vs u (Nat.le_of_lt_succ hdeep) hall).bind_pure
      | map es =>
          obtain ⟨h, u, hhead, hall, rfl⟩ := h
          have hentry : Cuts 1 (do
              let k ← itemIn left
              let v ← itemIn left
              pure (k, v)) :=
            (cuts_itemIn left).bind_left fun _ =>
              ((cuts_itemIn left).bind_left fun _ => Cuts.pure _).mono (Nat.zero_le 1)
          exact reads_counted (by decide) hhead (fun _ => rfl)
            ((cuts_times hentry _).bind_left fun _ => Cuts.pure _)
            (reads_entries ih es u (Nat.le_of_lt_succ hdeep) hall).bind_pure
      | bool b =>
          obtain rfl := h
          cases b with
          | false => exact reads_single rfl
          | true => exact reads_single rfl
      | null =>
          obtain rfl := h
          exact reads_single rfl
      | other => exact absurd h id

/-- **The decoder reads every spelling**, and leaves what follows. -/
theorem decode_encodes {rest : List UInt8} (hdeep : nesting v ≤ MAX_DEPTH) (h : Encodes v w) :
    decode (w ++ rest) = .ok (v, rest) :=
  reads_itemIn (MAX_DEPTH + 1) v w (Nat.lt_succ_of_le hdeep) h rest

/-- **What was read does not depend on what follows.** -/
theorem decode_cuts {input rest : List UInt8} (h : decode input = .ok (v, rest)) :
    ∃ p, input = p ++ rest ∧ ∀ rest', decode (p ++ rest') = .ok (v, rest') := by
  obtain ⟨p, hp, -, hreads⟩ := cuts_itemIn (MAX_DEPTH + 1) _ _ _ h
  exact ⟨p, hp, hreads⟩

end Ridm.Webauthn
