import Mathlib.Data.List.Forall2
import Ridm.Kerberos.Acceptor
import Ridm.Lib.BigEndian
import Ridm.Lib.Checked

/-!
# Keytab files

`parse_keytab` and `write_keytab` of `api/src/kerberos/keytab.rs`.  A file is two bytes and then records of a
signed size: a positive size is an entry, a negative one a hole, and zero ends the file.  Slices and indices
are checked where the source has them.

`reads_entry` reads one entry from what is written of it, `turn_bytes` is one turn of the loop over one piece
of a file, and `parseRecords_pieces` the loop over all of them.  `keytab_round_trip` puts these together with
`returns_parseKeytab`: a file comes back as its entries, wherever there are holes, and no file whatever makes
the parser slice out of range or go on for ever.
-/

namespace Ridm.Kerberos.Keytab

open FrontReader (Reads)
open Checked

def MAX_KEYTAB_BYTES : ℕ := 64 * 1024

def MAX_ENTRIES : ℕ := 256

/-! ## `Cursor` -/

/-- `Cursor`: a reader of a record. -/
abbrev Cursor (α : Type) := FrontReader (Fault String) UInt8 α

/-- `Cursor::take`. -/
def take (n : ℕ) : Cursor (List UInt8) := fun buf =>
  if buf.length < n then fail "truncated entry" else splitAt buf n

/-- `Cursor::u8`. -/
def u8 : Cursor UInt8 := do
  let b ← take 1
  liftM (index b 0 : Checked String UInt8)

/-- `u16::from_be_bytes` of the first two bytes. -/
def u16OfBytes (b : List UInt8) : Checked String ℕ := do
  let b0 ← index b 0
  let b1 ← index b 1
  .ok (BigEndian.toNat [b0, b1])

/-- `Cursor::u16`. -/
def u16 : Cursor ℕ := do
  let b ← take 2
  liftM (u16OfBytes b)

/-- `u32::from_be_bytes` of the first four bytes. -/
def u32OfBytes (b : List UInt8) : Checked String ℕ := do
  let b0 ← index b 0
  let b1 ← index b 1
  let b2 ← index b 2
  let b3 ← index b 3
  .ok (BigEndian.toNat [b0, b1, b2, b3])

/-- `Cursor::u32`. -/
def u32 : Cursor ℕ := do
  let b ← take 4
  liftM (u32OfBytes b)

/-- `Cursor::counted`. -/
def counted : Cursor (List UInt8) := do
  let n ← u16
  take n

def namePart (raw : List UInt8) : Checked String String := do
  require (.error "a principal name part is empty or too long") (!raw.isEmpty && decide (raw.length ≤ 255))
  orError (.error "a principal name is not UTF-8") (Utf8.fromUtf8 raw)

/-- `Cursor::text`. -/
def text : Cursor String := do
  let raw ← counted
  liftM (namePart raw)

/-! ## `parse_entry` -/

/-- The 32-bit version where the record has room for it, and the 8-bit one where it has not or the other is
zero. -/
def version (vno8 : UInt8) : Cursor ℕ := fun buf =>
  if 4 ≤ buf.length then
    (do
      let v ← u32
      pure (if v = 0 then vno8.toNat else v) : Cursor ℕ) buf
  else .ok (vno8.toNat, buf)

/-- The key is as long as its type needs, where the type is known. -/
def requireKeyLen (etype : ℤ) (key : List UInt8) : Checked String Unit :=
  match etypeKeyLen etype with
  | some want =>
      require (.error ("a " ++ etypeName etype ++ " key must be " ++ toString want ++ " bytes"))
        (key.length == want)
  | none => .ok ()

/-- `parse_entry`, from the front of the record. -/
def entry : Cursor KeytabEntry := do
  let count ← u16
  liftM (require (Fault.error "a principal has no or too many name parts")
    (count != 0 && decide (count ≤ 8)))
  let realm ← text
  let components ← FrontReader.times text count
  let _nameType ← u32
  let _timestamp ← u32
  let vno8 ← u8
  let etype ← u16
  let key ← counted
  liftM (require (Fault.error "a key has an impossible length")
    (!key.isEmpty && decide (key.length ≤ 64)))
  let kvno ← version vno8
  liftM (requireKeyLen etype key)
  pure ⟨⟨components, realm⟩, kvno, etype, key⟩

/-- `parse_entry`: what the record holds behind the entry is not looked at. -/
def parseEntry (record : List UInt8) : Checked String KeytabEntry := entry.run' record

/-! ## `parse_keytab` -/

/-- `i32::from_be_bytes` of the first four bytes. -/
def i32OfBytes (b : List UInt8) : Checked String ℤ := do
  let n ← u32OfBytes b
  .ok (if n < 2 ^ 31 then (n : ℤ) else (n : ℤ) - 2 ^ 32)

/-- A record of this size, and the file and the entries after it. -/
def record (size : ℤ) (rest : List UInt8) (out : List KeytabEntry) :
    Checked String (List UInt8 × List KeytabEntry) := do
  let len := size.natAbs
  require (.error "an entry runs past the end of the file") (decide (len ≤ rest.length))
  let (record, after) ← splitAt rest len
  if size < 0 then .ok (after, out)
  else do
    require (.error ("a keytab holds at most " ++ toString MAX_ENTRIES ++ " keys"))
      (out.length != MAX_ENTRIES)
    let e ← parseEntry record
    .ok (after, out ++ [e])

/-- One turn of the loop of `parse_keytab`: none where the loop ends. -/
def turn (rest : List UInt8) (out : List KeytabEntry) :
    Checked String (Option (List UInt8 × List KeytabEntry)) :=
  if rest.isEmpty then .ok none
  else do
    require (.error "truncated entry") (decide (4 ≤ rest.length))
    let size ← i32OfBytes rest
    let rest ← slice rest 4 rest.length
    if size = 0 then .ok none else some <$> record size rest out

variable {rest rest' l record' : List UInt8} {out out' : List KeytabEntry} {size : ℤ} {n : ℕ}

lemma record_shorter (h : record size rest out = .ok (rest', out')) : rest'.length ≤ rest.length := by
  rw [record] at h
  obtain ⟨-, -, h⟩ := bind_eq_ok.mp h
  obtain ⟨⟨taken, after⟩, hsplit, h⟩ := bind_eq_ok.mp h
  have hafter : after.length ≤ rest.length := by
    rw [splitAt] at hsplit
    split_ifs at hsplit
    cases hsplit
    simp
  split_ifs at h
  · cases h
    exact hafter
  · obtain ⟨-, -, h⟩ := bind_eq_ok.mp h
    obtain ⟨e, -, h⟩ := bind_eq_ok.mp h
    cases h
    exact hafter

lemma turn_shorter (h : turn rest out = .ok (some (rest', out'))) : rest'.length < rest.length := by
  rw [turn] at h
  split_ifs at h
  · cases h
  obtain ⟨_, hfour, h⟩ := bind_eq_ok.mp h
  have hle : 4 ≤ rest.length := of_decide_eq_true (require_eq_ok.mp hfour)
  obtain ⟨size, -, h⟩ := bind_eq_ok.mp h
  rw [slice_from hle] at h
  obtain ⟨rest₁, hrest, h⟩ := bind_eq_ok.mp h
  cases hrest
  split_ifs at h
  · cases h
  obtain ⟨p, hrecord, h⟩ := bind_eq_ok.mp h
  cases h
  have hrec := record_shorter hrecord
  rw [List.length_drop] at hrec
  omega

/-- The loop of `parse_keytab`. -/
def parseRecords (rest : List UInt8) (out : List KeytabEntry) : Checked String (List KeytabEntry) :=
  match _h : turn rest out with
  | .error e => .error e
  | .ok none => .ok out
  | .ok (some (rest', out')) => parseRecords rest' out'
  termination_by rest.length
  decreasing_by exact turn_shorter _h

def parseKeytab (bytes : List UInt8) : Checked String (List KeytabEntry) := do
  require (.error ("a keytab is at most " ++ toString (MAX_KEYTAB_BYTES / 1024) ++ " KiB"))
    (decide (bytes.length ≤ MAX_KEYTAB_BYTES))
  match bytes with
  | 0x05 :: 0x02 :: _ => do
      let rest ← slice bytes 2 bytes.length
      parseRecords rest []
  | 0x05 :: 0x01 :: _ => fail "keytab format 0x0501 (native byte order) is not supported"
  | _ => fail "not a keytab file"

/-! ## `write_keytab` -/

/-- `i32::to_be_bytes`. -/
def i32ToBytes (n : ℤ) : List UInt8 := BigEndian.ofInt 4 n

/-- A length in two bytes, and what it is the length of. -/
def writeCounted (b : List UInt8) : List UInt8 := BigEndian.ofNat 2 b.length ++ b

/-- What `write_keytab` writes of one entry, behind its size. -/
def writeRecord (e : KeytabEntry) : List UInt8 :=
  BigEndian.ofNat 2 e.principal.components.length ++ writeCounted (Utf8.utf8 e.principal.realm) ++
    (e.principal.components.map fun c => writeCounted (Utf8.utf8 c)).flatten ++
    BigEndian.ofNat 4 1 ++ BigEndian.ofNat 4 0 ++ [UInt8.ofNat (e.kvno &&& 0xff)] ++
    BigEndian.ofNat 2 (e.etype % 2 ^ 16).toNat ++ writeCounted e.key ++ BigEndian.ofNat 4 e.kvno

def writeKeytab (entries : List KeytabEntry) : List UInt8 :=
  [0x05, 0x02] ++ entries.flatMap fun e => i32ToBytes (writeRecord e).length ++ writeRecord e

/-! ## The reader without its checks -/

lemma take_eq (n : ℕ) : take n = FrontReader.take (.error "truncated entry") n := by
  funext buf
  rw [take, FrontReader.take]
  split_ifs with hlt hle hle
  · omega
  · rfl
  · exact splitAt_eq hle
  · omega

variable {e : KeytabEntry} {b : List UInt8}

lemma u16OfBytes_eq (h : b.length = 2) : u16OfBytes b = .ok (BigEndian.toNat b) := by
  obtain ⟨b0, b1, rfl⟩ := List.length_eq_two.mp h
  rfl

lemma u32OfBytes_append (h : b.length = 4) (rest : List UInt8) :
    u32OfBytes (b ++ rest) = .ok (BigEndian.toNat b) := by
  obtain ⟨b0, b1, b2, b3, rfl⟩ := List.length_eq_four.mp h
  rfl

lemma u32OfBytes_eq (h : b.length = 4) : u32OfBytes b = .ok (BigEndian.toNat b) := by
  have happend := u32OfBytes_append h []
  rwa [List.append_nil] at happend

lemma u8_eq : u8 = FrontReader.take (.error "truncated entry") 1 >>= fun b => pure (b.headD 0) := by
  rw [u8, take_eq]
  refine FrontReader.take_bind_congr fun b hb => ?_
  obtain ⟨b0, rfl⟩ := List.length_eq_one_iff.mp hb
  rfl

lemma u16_eq : u16 = FrontReader.take (.error "truncated entry") 2 >>= fun b => pure (BigEndian.toNat b) := by
  rw [u16, take_eq]
  refine FrontReader.take_bind_congr fun b hb => ?_
  rw [u16OfBytes_eq hb]
  rfl

lemma u32_eq : u32 = FrontReader.take (.error "truncated entry") 4 >>= fun b => pure (BigEndian.toNat b) := by
  rw [u32, take_eq]
  refine FrontReader.take_bind_congr fun b hb => ?_
  rw [u32OfBytes_eq hb]
  rfl

/-! ## The parser returns -/

lemma returns_require (e : String) (ok : Bool) : Returns (require (Fault.error e) ok) := by
  cases ok
  · exact .error e
  · exact .ok ()

lemma returns_orError {α : Type} (e : String) (o : Option α) : Returns (orError (Fault.error e) o) := by
  cases o
  · exact .error e
  · exact .ok _

lemma safe_u16 : SafeReader u16 := by
  rw [u16_eq]
  exact (SafeReader.take _ 2).bind fun _ => .pure _

lemma safe_u32 : SafeReader u32 := by
  rw [u32_eq]
  exact (SafeReader.take _ 4).bind fun _ => .pure _

lemma safe_u8 : SafeReader u8 := by
  rw [u8_eq]
  exact (SafeReader.take _ 1).bind fun _ => .pure _

lemma safe_counted : SafeReader counted := by
  refine safe_u16.bind fun n => ?_
  rw [take_eq]
  exact .take _ n

lemma safe_text : SafeReader text :=
  safe_counted.bind fun _ => .lift ((returns_require _ _).bind fun _ _ => returns_orError _ _)

lemma safe_version (vno8 : UInt8) : SafeReader (version vno8) := by
  intro buf
  rw [version]
  split_ifs
  · exact (safe_u32.bind fun _ => .pure _) buf
  · exact .ok _

lemma returns_requireKeyLen (etype : ℤ) (key : List UInt8) : Returns (requireKeyLen etype key) := by
  rw [requireKeyLen]
  cases etypeKeyLen etype with
  | some want => exact returns_require _ _
  | none => exact .ok ()

lemma safe_entry : SafeReader entry :=
  safe_u16.bind fun count => (SafeReader.lift (returns_require _ _)).bind fun _ =>
    safe_text.bind fun _ => (safe_text.times count).bind fun _ =>
    safe_u32.bind fun _ => safe_u32.bind fun _ => safe_u8.bind fun vno8 => safe_u16.bind fun _ =>
    safe_counted.bind fun key => (SafeReader.lift (returns_require _ _)).bind fun _ =>
    (safe_version vno8).bind fun _ => (SafeReader.lift (returns_requireKeyLen _ key)).bind fun _ => .pure _

lemma returns_parseEntry (record : List UInt8) : Returns (parseEntry record) :=
  (safe_entry record).bind fun _ _ => .ok _

lemma returns_record (size : ℤ) (rest : List UInt8) (out : List KeytabEntry) : Returns (record size rest out) := by
  refine (returns_require _ _).bind fun _ hle => ?_
  have hlen : size.natAbs ≤ rest.length := of_decide_eq_true (require_eq_ok.mp hle)
  rw [splitAt_eq hlen]
  refine (Returns.ok _).bind fun p _ => ?_
  split_ifs
  · exact .ok _
  · exact (returns_require _ _).bind fun _ _ => (returns_parseEntry _).bind fun _ _ => .ok _

lemma returns_turn (rest : List UInt8) (out : List KeytabEntry) : Returns (turn rest out) := by
  rw [turn]
  split_ifs
  · exact .ok _
  refine (returns_require _ _).bind fun _ hfour => ?_
  have hle : 4 ≤ rest.length := of_decide_eq_true (require_eq_ok.mp hfour)
  have hi32 : ∃ n, i32OfBytes rest = .ok n := by
    have hread := u32OfBytes_append (List.length_take_of_le hle) (rest.drop 4)
    rw [List.take_append_drop] at hread
    rw [i32OfBytes, hread]
    exact ⟨_, rfl⟩
  obtain ⟨size, hsize⟩ := hi32
  refine (Returns.of_eq_ok hsize).bind fun _ _ => ?_
  refine (returns_slice hle (Nat.le_refl _)).bind fun rest' _ => ?_
  split_ifs
  · exact .ok _
  · exact (returns_record _ _ _).bind fun _ _ => .ok _

lemma parseRecords_done (h : turn rest out = .ok none) : parseRecords rest out = .ok out := by
  rw [parseRecords]
  split
  · next e he => rw [he] at h; cases h
  · rfl
  · next he => rw [he] at h; cases h

lemma parseRecords_on (h : turn rest out = .ok (some (rest', out'))) :
    parseRecords rest out = parseRecords rest' out' := by
  rw [parseRecords]
  split
  · next he => rw [he] at h; cases h
  · next he => rw [he] at h; cases h
  · next he =>
      rw [he] at h
      cases h
      rfl

/-- A turn over the lowest size there is. -/
example : turn [0x80, 0, 0, 0, 7] [] = fail "an entry runs past the end of the file" := by
  decide +kernel

lemma returns_parseRecords (rest : List UInt8) (out : List KeytabEntry) : Returns (parseRecords rest out) := by
  induction rest, out using parseRecords.induct with
  | case1 rest out e h =>
      have hturn := returns_turn rest out
      rw [h] at hturn
      rw [parseRecords]
      split
      · next he =>
          rw [he] at h
          cases h
          exact returns_error_iff.mpr (returns_error_iff.mp hturn)
      · next he => rw [he] at h; cases h
      · next he => rw [he] at h; cases h
  | case2 rest out h =>
      rw [parseRecords_done h]
      exact .ok out
  | case3 rest out rest' out' h ih =>
      rw [parseRecords_on h]
      exact ih

lemma returns_parseKeytab (bytes : List UInt8) : Returns (parseKeytab bytes) := by
  refine (returns_require _ _).bind fun _ _ => ?_
  split
  · exact (returns_slice (by simp) (Nat.le_refl _)).bind fun _ _ => returns_parseRecords _ _
  · exact .error _
  · exact .error _

/-! ## One entry -/

/-- What an entry has to be for a file to hold it. -/
structure Writable (e : KeytabEntry) : Prop where
  components : 1 ≤ e.principal.components.length ∧ e.principal.components.length ≤ 8
  names : ∀ s ∈ e.principal.realm :: e.principal.components,
    1 ≤ (Utf8.utf8 s).length ∧ (Utf8.utf8 s).length ≤ 255
  etype : 0 ≤ e.etype ∧ e.etype < 2 ^ 16
  key : 1 ≤ e.key.length ∧ e.key.length ≤ 64
  keyLen : ∀ want, etypeKeyLen e.etype = some want → e.key.length = want
  kvno : e.kvno < 2 ^ 32

lemma reads_number {w : ℕ} (h : n < 256 ^ w) :
    Reads (FrontReader.take (Fault.error "truncated entry") w >>= fun b => pure (BigEndian.toNat b))
      (BigEndian.ofNat w n) n := by
  have htake := FrontReader.reads_take (Fault.error "truncated entry") (BigEndian.ofNat w n)
  rw [BigEndian.length_ofNat] at htake
  have hread := Reads.bind_pure (g := BigEndian.toNat) htake
  rwa [BigEndian.toNat_ofNat_of_lt h] at hread

lemma reads_u8 (b : UInt8) : Reads u8 [b] b := by
  rw [u8_eq]
  exact Reads.bind_pure (FrontReader.reads_take (Fault.error "truncated entry") [b])

lemma reads_u16 (h : n < 2 ^ 16) : Reads u16 (BigEndian.ofNat 2 n) n := by
  rw [u16_eq]
  exact reads_number h

lemma reads_u32 (h : n < 2 ^ 32) : Reads u32 (BigEndian.ofNat 4 n) n := by
  rw [u32_eq]
  exact reads_number h

lemma reads_counted (h : b.length < 2 ^ 16) : Reads counted (writeCounted b) b := by
  refine (reads_u16 h).bind ?_
  rw [take_eq]
  exact FrontReader.reads_take _ b

lemma reads_text {s : String} (h : 1 ≤ (Utf8.utf8 s).length ∧ (Utf8.utf8 s).length ≤ 255) :
    Reads text (writeCounted (Utf8.utf8 s)) s := by
  have hne : Utf8.utf8 s ≠ [] := List.ne_nil_of_length_pos h.1
  have hpart : namePart (Utf8.utf8 s) = .ok s := by
    have hok : (!(Utf8.utf8 s).isEmpty && decide ((Utf8.utf8 s).length ≤ 255)) = true := by
      rw [Bool.and_eq_true, decide_eq_true_eq]
      exact ⟨by simp [hne], h.2⟩
    rw [namePart, hok, Utf8.fromUtf8_utf8]
    rfl
  exact (reads_counted (Nat.lt_of_le_of_lt h.2 (by decide))).bind_last (Reads.lift hpart)

/-- **The 32-bit version wins** over its own low byte, and where it is zero the low byte is zero too. -/
lemma reads_version (h : n < 2 ^ 32) :
    Reads (version (UInt8.ofNat (n &&& 0xff))) (BigEndian.ofNat 4 n) n := by
  intro rest
  have hroom : 4 ≤ (BigEndian.ofNat 4 n ++ rest).length := by simp
  have hread := Reads.bind_pure (g := fun v => if v = 0 then (UInt8.ofNat (n &&& 0xff)).toNat else v)
    (reads_u32 h) rest
  have hvalue : (if n = 0 then (UInt8.ofNat (n &&& 0xff)).toNat else n) = n := by
    split_ifs with hn
    · rw [hn]
      rfl
    · rfl
  rw [hvalue] at hread
  rw [version, if_pos hroom]
  exact hread

lemma requireKeyLen_eq (h : Writable e) : requireKeyLen e.etype e.key = .ok () := by
  rw [requireKeyLen]
  cases hwant : etypeKeyLen e.etype with
  | none => rfl
  | some want => simp [require, h.keyLen want hwant]

/-- **One entry is read** from what is written of it. -/
theorem reads_entry (h : Writable e) : Reads entry (writeRecord e) e := by
  obtain ⟨hone, height⟩ := h.components
  have hcount : e.principal.components.length < 2 ^ 16 := by omega
  have hparts : (require (Fault.error "a principal has no or too many name parts")
      (e.principal.components.length != 0 && decide (e.principal.components.length ≤ 8)) :
      Checked String Unit) = .ok () := by
    rw [require_eq_ok]
    simp [height, Nat.ne_of_gt hone]
  have hkeyOk : (require (Fault.error "a key has an impossible length")
      (!e.key.isEmpty && decide (e.key.length ≤ 64)) : Checked String Unit) = .ok () := by
    rw [require_eq_ok]
    simp [h.key.2, List.ne_nil_of_length_pos h.key.1]
  have hcomponents : Reads (FrontReader.times text e.principal.components.length)
      (e.principal.components.map fun c => writeCounted (Utf8.utf8 c)).flatten e.principal.components := by
    refine Reads.times ?_
    rw [List.forall₂_map_left_iff, List.forall₂_same]
    exact fun c hc => reads_text (h.names c (List.mem_cons_of_mem _ hc))
  have hkey := h.key.2
  have hpos := h.etype.1
  have hlt := h.etype.2
  have hetype : ((e.etype % 2 ^ 16).toNat : ℤ) = e.etype := by omega
  simp only [writeRecord, List.append_assoc]
  refine (reads_u16 hcount).bind (Reads.bind_nil (Reads.lift hparts) ?_)
  refine (reads_text (h.names _ List.mem_cons_self)).bind (hcomponents.bind ?_)
  refine (reads_u32 (by decide)).bind ((reads_u32 (by decide)).bind ((reads_u8 _).bind ?_))
  refine (reads_u16 (by omega)).bind ((reads_counted (by omega)).bind (Reads.bind_nil (Reads.lift hkeyOk) ?_))
  rw [hetype]
  exact (reads_version h.kvno).bind_last (Reads.bind_nil (Reads.lift (requireKeyLen_eq h)) (Reads.pure e))

/-! ## Whole files -/

/-- A piece of a file behind its first two bytes: an entry, or a hole of any content. -/
inductive Piece
  | entry (e : KeytabEntry)
  | hole (content : { c : List UInt8 // c ≠ [] })

/-- The piece with its size before it, negative for a hole. -/
def Piece.bytes : Piece → List UInt8
  | entry e => i32ToBytes (writeRecord e).length ++ writeRecord e
  | hole content => i32ToBytes (-content.val.length) ++ content.val

def fileOf (pieces : List Piece) : List UInt8 := [0x05, 0x02] ++ pieces.flatMap Piece.bytes

def entriesOf (pieces : List Piece) : List KeytabEntry :=
  pieces.filterMap fun
    | .entry e => some e
    | .hole _ => none

lemma i32OfBytes_i32ToBytes {m : ℤ} (hlow : -2 ^ 31 ≤ m) (hhigh : m < 2 ^ 31) (rest : List UInt8) :
    i32OfBytes (i32ToBytes m ++ rest) = .ok m := by
  have hnat : BigEndian.toNat (i32ToBytes m) = (m % 2 ^ 32).toNat :=
    BigEndian.toNat_ofNat_of_lt (by omega)
  have hvalue : (if (m % 2 ^ 32).toNat < 2 ^ 31 then ((m % 2 ^ 32).toNat : ℤ)
      else ((m % 2 ^ 32).toNat : ℤ) - 2 ^ 32) = m := by
    split_ifs
    · omega
    · omega
  rw [i32OfBytes, u32OfBytes_append (by simp [i32ToBytes]), hnat]
  show Except.ok _ = _
  rw [hvalue]

lemma turn_record {content : List UInt8} (hlen : size.natAbs = content.length) (hne : content ≠ [])
    (hlt : content.length < 2 ^ 31) (rest : List UInt8) (out : List KeytabEntry) :
    turn (i32ToBytes size ++ (content ++ rest)) out =
      some <$> (if size < 0 then .ok (rest, out)
        else do
          require (.error ("a keytab holds at most " ++ toString MAX_ENTRIES ++ " keys"))
            (out.length != MAX_ENTRIES)
          let e ← parseEntry content
          .ok (rest, out ++ [e])) := by
  have hfour : (i32ToBytes size).length = 4 := BigEndian.length_ofInt 4 _
  have hpos : 0 < content.length := List.length_pos_of_ne_nil hne
  have hsize : size ≠ 0 := by omega
  have hle : 4 ≤ (i32ToBytes size ++ (content ++ rest)).length := by
    rw [List.length_append, hfour]
    exact Nat.le_add_right 4 _
  have hempty : (i32ToBytes size ++ (content ++ rest)).isEmpty = false := by
    rw [List.isEmpty_eq_false_iff]
    exact List.ne_nil_of_length_pos (Nat.lt_of_lt_of_le (by decide) hle)
  have hrest : (i32ToBytes size ++ (content ++ rest)).drop 4 = content ++ rest := List.drop_left' hfour
  have hsplit : (splitAt (content ++ rest) content.length : Checked String _) = .ok (content, rest) := by
    rw [splitAt_eq (by simp), List.take_left, List.drop_left]
  have hfits : decide (size.natAbs ≤ (content ++ rest).length) = true := by
    rw [hlen, decide_eq_true_eq, List.length_append]
    exact Nat.le_add_right _ _
  rw [turn, hempty, decide_eq_true hle, i32OfBytes_i32ToBytes (by omega) (by omega), slice_from hle, hrest]
  show (if size = 0 then _ else some <$> record size (content ++ rest) out) = _
  rw [if_neg hsize, record, hfits, hlen, hsplit]
  rfl

lemma parseEntry_writeRecord (h : Writable e) : parseEntry (writeRecord e) = .ok e := by
  have hread := reads_entry h []
  rw [List.append_nil] at hread
  show (entry (writeRecord e)).map Prod.fst = _
  rw [hread]
  rfl

lemma writeRecord_ne_nil (e : KeytabEntry) : writeRecord e ≠ [] := by
  intro h
  have hnone : (writeRecord e).length = 0 := List.length_eq_zero_iff.mpr h
  simp only [writeRecord, List.length_append, BigEndian.length_ofNat] at hnone
  omega

lemma turn_entry (h : Writable e) (hlt : (writeRecord e).length < 2 ^ 31)
    (hroom : out.length < MAX_ENTRIES) (rest : List UInt8) :
    turn ((Piece.entry e).bytes ++ rest) out = .ok (some (rest, out ++ [e])) := by
  have hpos : ¬ ((writeRecord e).length : ℤ) < 0 := by omega
  have hcount : (out.length != MAX_ENTRIES) = true := bne_iff_ne.mpr (Nat.ne_of_lt hroom)
  rw [Piece.bytes, List.append_assoc,
    turn_record (Int.natAbs_natCast _) (writeRecord_ne_nil e) hlt, if_neg hpos, hcount,
    parseEntry_writeRecord h]
  rfl

lemma turn_hole (content : { c : List UInt8 // c ≠ [] }) (hlt : content.val.length < 2 ^ 31)
    (rest : List UInt8) (out : List KeytabEntry) :
    turn ((Piece.hole content).bytes ++ rest) out = .ok (some (rest, out)) := by
  have hpos : 0 < content.val.length := List.length_pos_of_ne_nil content.property
  have hneg : -(content.val.length : ℤ) < 0 := by omega
  rw [Piece.bytes, List.append_assoc, turn_record (by omega) content.property hlt, if_pos hneg]
  rfl

/-- **The loop over the pieces of a file**, with what it has found before. -/
theorem parseRecords_pieces (pieces : List Piece) (out : List KeytabEntry)
    (hentries : ∀ e ∈ entriesOf pieces, Writable e)
    (hroom : out.length + (entriesOf pieces).length ≤ MAX_ENTRIES)
    (hlen : (pieces.flatMap Piece.bytes).length < 2 ^ 31) :
    parseRecords (pieces.flatMap Piece.bytes) out = .ok (out ++ entriesOf pieces) := by
  induction pieces generalizing out with
  | nil =>
      rw [parseRecords_done rfl]
      exact congrArg Except.ok (List.append_nil out).symm
  | cons p ps ih =>
      rw [List.flatMap_cons, List.length_append] at hlen
      rw [List.flatMap_cons]
      cases p with
      | entry e =>
          have hcons : entriesOf (.entry e :: ps) = e :: entriesOf ps := rfl
          rw [hcons] at hentries hroom ⊢
          rw [List.length_cons] at hroom
          have hsize : (writeRecord e).length < 2 ^ 31 := by
            rw [Piece.bytes, List.length_append] at hlen
            omega
          rw [parseRecords_on (turn_entry (hentries e List.mem_cons_self) hsize (by omega) _),
            ih _ (fun d hd => hentries d (List.mem_cons_of_mem e hd)) ?_ (by omega)]
          · rw [List.append_assoc, List.singleton_append]
          · rw [List.length_append, List.length_singleton]
            omega
      | hole content =>
          have hcons : entriesOf (.hole content :: ps) = entriesOf ps := rfl
          rw [hcons] at hentries hroom ⊢
          have hsize : content.val.length < 2 ^ 31 := by
            rw [Piece.bytes, List.length_append] at hlen
            omega
          rw [parseRecords_on (turn_hole content hsize _ _), ih _ hentries hroom (by omega)]

lemma writeKeytab_eq (entries : List KeytabEntry) : writeKeytab entries = fileOf (entries.map .entry) := by
  rw [writeKeytab, fileOf, List.flatMap_map]
  rfl

/-- **Keytab files come back.**  What is written is the file of its entries without holes.  A file of at most
256 entries with holes anywhere, before, between and behind them, is parsed to the entries in their order, if
it is not too long.  No bytes whatever make the parser slice outside of them. -/
theorem keytab_round_trip :
    (∀ entries, writeKeytab entries = fileOf (entries.map .entry)) ∧
    (∀ entries pieces, entriesOf pieces = entries → entries.length ≤ 256 → (∀ e ∈ entries, Writable e) →
      (fileOf pieces).length ≤ MAX_KEYTAB_BYTES → parseKeytab (fileOf pieces) = .ok entries) ∧
    ∀ bytes, Returns (parseKeytab bytes) := by
  refine ⟨writeKeytab_eq, ?_, returns_parseKeytab⟩
  rintro entries pieces rfl hcount hentries hlen
  have hbody : (pieces.flatMap Piece.bytes).length < 2 ^ 31 := by
    rw [fileOf, List.length_append] at hlen
    have hmax : MAX_KEYTAB_BYTES < 2 ^ 31 := by decide
    omega
  have hrecords := parseRecords_pieces pieces [] hentries 
    (by rwa [List.length_nil, Nat.zero_add]) hbody
  have hfile : fileOf pieces = 0x05 :: 0x02 :: pieces.flatMap Piece.bytes := rfl
  rw [hfile] at hlen ⊢
  rw [parseKeytab, decide_eq_true hlen, slice_from (by simp)]
  exact hrecords

/-- A file with a hole before its entry and one behind it. -/
theorem keytab_round_trip_holed :
    parseKeytab (fileOf [.hole ⟨[0, 0, 0, 0, 0], by decide⟩,
      .entry ⟨⟨["host", "x"], "R"⟩, 300, 17, List.replicate 16 7⟩, .hole ⟨[1], by decide⟩]) =
    .ok [⟨⟨["host", "x"], "R"⟩, 300, 17, List.replicate 16 7⟩] :=
  keytab_round_trip.2.1 _ _ rfl (by decide)
    (by
      intro e he
      rw [List.mem_singleton.mp he]
      exact ⟨by decide, by decide, by decide, by decide, by decide, by decide⟩)
    (by decide)

end Ridm.Kerberos.Keytab
