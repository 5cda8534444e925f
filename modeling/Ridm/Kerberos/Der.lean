import Ridm.Core.Types
import Ridm.Lib.Utf8

/-!
# The DER that the Kerberos acceptor reads

The reader of `api/src/kerberos/der.rs`: items of a one-byte tag, a definite length and content, read one
after another out of a byte string, and the values that contents stand for.
-/

namespace Ridm.Kerberos

/-- Why a DER value is refused. -/
structure DerError where
  reason : String
  deriving DecidableEq

/-- Reading from the front of a byte string (`Reader`). -/
abbrev Reader (α : Type) := StateT (List UInt8) (Except DerError) α

def INTEGER : UInt8 := 0x02

def BIT_STRING : UInt8 := 0x03

def OCTET_STRING : UInt8 := 0x04

def GENERALIZED_TIME : UInt8 := 0x18

def GENERAL_STRING : UInt8 := 0x1b

def SEQUENCE : UInt8 := 0x30

def ctx (n : UInt8) : UInt8 := 0xa0 ||| n

def app (n : UInt8) : UInt8 := 0x60 ||| n

def itemLength : List UInt8 → Except DerError (ℕ × List UInt8)
  | [] => .error ⟨"truncated length"⟩
  | first :: rest =>
      if first < 0x80 then .ok (first.toNat, rest)
      else
        let n := (first &&& 0x7f).toNat
        if n = 0 then .error ⟨"indefinite length"⟩
        else if 3 < n ∨ rest.length < n then .error ⟨"length out of range"⟩
        else .ok ((rest.take n).foldl (fun len b => len * 256 + b.toNat) 0, rest.drop n)

/-- `Reader::item`. -/
def item : Reader (UInt8 × List UInt8) := fun buf =>
  match buf with
  | [] => .error ⟨"truncated"⟩
  | tag :: rest => do
      require ⟨"multi-byte tag"⟩ (tag &&& 0x1f != 0x1f)
      let (len, rest) ← itemLength rest
      require ⟨"content runs past the end"⟩ (decide (len ≤ rest.length))
      .ok ((tag, rest.take len), rest.drop len)

/-- `Reader::expect`. -/
def expect (tag : UInt8) : Reader (List UInt8) := do
  let (found, content) ← item
  if found = tag then pure content else throw ⟨"unexpected tag"⟩

def single (buf : List UInt8) (tag : UInt8) : Except DerError (List UInt8) := do
  let (content, rest) ← expect tag buf
  require ⟨"trailing data"⟩ rest.isEmpty
  .ok content

/-- `Reader::explicit`. -/
def explicit (n inner : UInt8) : Reader (List UInt8) := do
  let wrapped ← expect (ctx n)
  liftM (single wrapped inner)

/-- `Reader::explicit_opt`. -/
def explicitOpt (n inner : UInt8) : Reader (Option (List UInt8)) := do
  if (← get).head? = some (ctx n) then some <$> explicit n inner else pure none

/-- `int`: two's complement, of eight bytes at most. -/
def int (content : List UInt8) : Except DerError ℤ :=
  match content with
  | [] => .error ⟨"integer out of range"⟩
  | first :: _ =>
      if 8 < content.length then .error ⟨"integer out of range"⟩
      else
        .ok (content.foldl (fun v b => v * 256 + b.toNat) (if first &&& 0x80 != 0 then (-1 : ℤ) else 0))

def string (content : List UInt8) : Except DerError String :=
  if 1024 < content.length then .error ⟨"string too long"⟩
  else orError ⟨"string is not UTF-8"⟩ (Utf8.fromUtf8 content)

def bit (content : List UInt8) (i : ℕ) : Bool :=
  content[1 + i / 8]?.any fun b => b &&& (0x80 >>> UInt8.ofNat (i % 8)) != 0

/-! ## Times -/

/-- The days of a month, in the Gregorian calendar. -/
def daysInMonth (year month : ℤ) : ℤ :=
  if month = 2 then
    if year % 4 = 0 ∧ (year % 100 ≠ 0 ∨ year % 400 = 0) then 29 else 28
  else if month ∈ [4, 6, 9, 11] then 30 else 31

/-- `NaiveDate::from_ymd_opt`, as days since the beginning of 1970: years are counted from March on. -/
def fromYmd (year month day : ℤ) : Option ℤ :=
  if 1 ≤ month ∧ month ≤ 12 ∧ 1 ≤ day ∧ day ≤ daysInMonth year month then
    let y := if month ≤ 2 then year - 1 else year
    let m := (month + 9) % 12
    let dayOfYear := (153 * m + 2) / 5 + day - 1
    some (365 * y + y / 4 - y / 100 + y / 400 + dayOfYear - 719468)
  else none

/-- The number that decimal digits stand for. -/
def digits (content : List UInt8) (a b : ℕ) : ℤ :=
  ((content.take b).drop a).foldl (fun n d => n * 10 + (d.toNat - 48 : ℤ)) 0

/-- `time`: `YYYYMMDDHHMMSSZ`, no fractions. -/
def time (content : List UInt8) : Except DerError Instant := do
  require ⟨"bad KerberosTime"⟩ (content.length == 15 && content[14]? == some 90 &&
    (content.take 14).all fun b => 48 ≤ b.toNat && b.toNat ≤ 57)
  let days ← orError ⟨"bad date"⟩ (fromYmd (digits content 0 4) (digits content 4 6) (digits content 6 8))
  let hour := digits content 8 10
  let minute := digits content 10 12
  let second := digits content 12 14
  require ⟨"bad time"⟩ (decide (hour < 24 ∧ minute < 60 ∧ second < 60))
  .ok (seconds (days * 86400 + hour * 3600 + minute * 60 + second))

example : time "20260922123456Z".toUTF8.data.toList = .ok (seconds 1790080496) := by decide

end Ridm.Kerberos
