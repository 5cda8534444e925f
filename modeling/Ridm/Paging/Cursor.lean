import Mathlib.Data.Prod.Lex
import Mathlib.Data.Sum.Order
import Ridm.Core.Types
import Ridm.Core.Uuid128
import Ridm.Lib.Base64
import Ridm.Lib.Keyset
import Ridm.Lib.Utf8

/-!
# Sorted lists and their cursors

`api/src/util/cursor.rs`, and what the lists that page by a chosen key have in common.  A page is read
one row longer than it is; where that row is there, the page carries a cursor, the sort key and the id
of its last row.  The key is computed by the application from the row (`key`), and compared by the
database with an expression over the columns (`expr`).

A list is followed from the first page by the cursors (`followPages`).  `followPages_iff` says when that
visits every row once and in order.
-/

namespace Ridm.Paging

open Keyset (Cuts EndsPage)

/-! ## Cursors -/

/-- The row a page ended at. -/
structure SortCursor where
  key : String
  id : Uuid128

/-- `serde_json::to_vec`. -/
def SortCursor.toVec (c : SortCursor) : List UInt8 :=
  Utf8.utf8 (String.ofList (Value.object
    [("k", .string c.key), ("i", .string (String.ofList c.id.text))]).text)

lemma SortCursor.toVec_inj {c c' : SortCursor} (h : c.toVec = c'.toVec) : c = c' := by
  have hstring := congrArg Utf8.fromUtf8 h
  simp only [toVec, Utf8.fromUtf8_utf8, Option.some.injEq] at hstring
  have htext := congrArg (· ++ []) (String.ofList_injective hstring)
  have hend : Follows [] := fun _ hc => absurd hc (Option.not_mem_none _)
  obtain ⟨hvalue, -⟩ := Value.text_append_inj _ _ rfl rfl hend hend htext
  simp only [Value.object.injEq, List.cons.injEq, Prod.mk.injEq, Value.string.injEq, true_and,
    and_true] at hvalue
  obtain ⟨hkey, hid⟩ := hvalue
  cases c
  cases c'
  exact congrArg₂ SortCursor.mk hkey (Uuid128.text_inj (String.ofList_injective hid))

/-- A time as a column of type `timestamptz` has it and RFC 3339 can write it: in microseconds, of the
years 0 to 9999. -/
structure Timestamp where
  instant : Instant
  micros : 1000 ∣ instant
  notBefore : seconds (-62167219200) ≤ instant
  before : instant < seconds 253402300800
  deriving DecidableEq

/-- What the lists use that is not theirs: the database's order of texts, its `lower` of a character and
its patterns, `str::to_lowercase`, RFC 3339 times, and the reader of cursors. -/
structure Platform where
  collation : LinearOrder String
  lower : Char → Char
  like : String → String → Bool
  ilike : String → String → Bool
  toLowercase : String → String
  toRfc3339 : Instant → String
  parseFromRfc3339 : String → Option Instant
  fromSlice : List UInt8 → Option SortCursor

/-- What is written is read back. -/
structure Platform.Laws (P : Platform) : Prop where
  readsTime : ∀ t : Timestamp, P.parseFromRfc3339 (P.toRfc3339 t.instant) = some t.instant
  readsCursor : ∀ c : SortCursor, P.fromSlice c.toVec = some c

def SortCursor.encode (c : SortCursor) : String := String.ofList (Base64.encodeUrl c.toVec)

/-- The answer where a cursor is not one. -/
def invalidCursor : AppError := .badRequest "invalid cursor"

namespace SortCursor

variable (P : Platform)

def decode (raw : String) : Except AppError SortCursor := do
  let bytes ← orError invalidCursor (Base64.decodeUrl raw.toList)
  orError invalidCursor (P.fromSlice bytes)

def time (c : SortCursor) : Except AppError Instant :=
  orError invalidCursor (P.parseFromRfc3339 c.key)

variable {P}

lemma decode_encode (h : P.Laws) (c : SortCursor) : decode P c.encode = .ok c := by
  rw [decode, encode, String.toList_ofList, Base64.decodeUrl_encodeUrl]
  exact orError_eq_ok.mpr (h.readsCursor c)

end SortCursor

/-! ## Directions and sizes -/

/-- The direction of a list. -/
inductive SortDir
  | asc
  | desc

def pageSize (requested : Option ℕ) : ℕ := max 1 (min (requested.getD 50) 500)

lemma pageSize_pos (requested : Option ℕ) : 0 < pageSize requested :=
  Nat.lt_of_lt_of_le Nat.zero_lt_one (Nat.le_max_left _ _)

/-- One page of a list. -/
structure Page (ρ : Type) where
  items : List ρ
  nextCursor : Option String

/-- `Page::build`. -/
def Page.build {ρ : Type} (rows : List ρ) (limit : ℕ) (encode : ρ → String) : Page ρ :=
  if limit < rows.length then ⟨rows.take limit, (rows.take limit).getLast?.map encode⟩
  else ⟨rows, none⟩

/-! ## The database's order -/

def Text (_ : Platform) : Type := String

instance (P : Platform) : LinearOrder (Text P) := P.collation

/-- What rows are ordered by: a time, or a text. -/
abbrev SqlKey (P : Platform) : Type := ℤ ⊕ₗ Text P

/-- The value of `(key, id)`. -/
abbrev Position (P : Platform) : Type := SqlKey P ×ₗ ℕ

def ofTime (P : Platform) (t : Instant) : SqlKey P := Sum.inlₗ t

def ofText (P : Platform) (s : String) : SqlKey P := Sum.inrₗ (s : Text P)

/-- A key and an id, which is compared by its bytes. -/
def position {P : Platform} (key : SqlKey P) (id : Uuid128) : Position P := toLex (key, id.toNat)

/-- The order of a list, with the comparison a cursor continues with: `>` or `<`. -/
def SortDir.lt {P : Platform} : SortDir → Position P → Position P → Prop
  | .asc, a, b => a < b
  | .desc, a, b => b < a

/-- `ORDER BY`. -/
def SortDir.le {P : Platform} : SortDir → Position P → Position P → Prop
  | .asc, a, b => a ≤ b
  | .desc, a, b => b ≤ a

section Direction

variable {P : Platform} {dir : SortDir}

instance : DecidableRel (dir.lt (P := P)) := fun a b =>
  match dir with
  | .asc => inferInstanceAs (Decidable (a < b))
  | .desc => inferInstanceAs (Decidable (b < a))

instance : DecidableRel (dir.le (P := P)) := fun a b =>
  match dir with
  | .asc => inferInstanceAs (Decidable (a ≤ b))
  | .desc => inferInstanceAs (Decidable (b ≤ a))

instance : IsStrictOrder (Position P) dir.lt where
  irrefl a := by cases dir <;> exact lt_irrefl a
  trans a b c := by
    cases dir with
    | asc => exact fun hab hbc => lt_trans hab hbc
    | desc => exact fun hab hbc => lt_trans hbc hab

lemma SortDir.le_total (a b : Position P) : dir.le a b ∨ dir.le b a := by
  cases dir with
  | asc => exact LinearOrder.le_total a b
  | desc => exact LinearOrder.le_total b a

lemma SortDir.le_trans {a b c : Position P} (hab : dir.le a b) (hbc : dir.le b c) : dir.le a c := by
  cases dir with
  | asc => exact Preorder.le_trans a b c hab hbc
  | desc => exact Preorder.le_trans c b a hbc hab

lemma SortDir.lt_of_le {a b : Position P} (hab : dir.le a b) (hne : a ≠ b) : dir.lt a b := by
  cases dir with
  | asc => exact lt_of_le_of_ne hab hne
  | desc => exact lt_of_le_of_ne hab hne.symm

end Direction

/-! ## Lists -/

/-- What `sqlx` binds of a time: whole microseconds from the beginning of the year 2000. -/
def toTimestamptz (t : Instant) : Instant := t - (t - seconds 946684800).tmod 1000

lemma toTimestamptz_timestamp (t : Timestamp) : toTimestamptz t.instant = t.instant := by
  have hdvd : (1000 : ℤ) ∣ t.instant - seconds 946684800 :=
    Int.dvd_sub t.micros ⟨946684800 * 1000000, by decide⟩
  rw [toTimestamptz, Int.tmod_eq_zero_of_dvd hdvd]
  exact Int.sub_zero _

/-- A way to sort rows: the expression ordered by, the row's value of it as the cursor carries it, and
whether it is a time. -/
structure SortedBy (P : Platform) (ρ : Type) where
  expr : ρ → SqlKey P
  key : ρ → String
  isTime : Bool

namespace SortedBy

variable {P : Platform} {ρ : Type} (S : SortedBy P ρ) (id : ρ → Uuid128)

def place (r : ρ) : Position P := position (S.expr r) (id r)

def ordered (dir : SortDir) (rows : List ρ) : List ρ :=
  rows.insertionSort fun x y => dir.le (S.place id x) (S.place id y)

/-- The values a query binds of a cursor. -/
def bound (c : SortCursor) : Position P :=
  if S.isTime then position (ofTime P (toTimestamptz ((c.time P).toOption.getD 0))) c.id
  else position (ofText P c.key) c.id

/-- `repos::…::list_sorted`, of the rows that match. -/
def select (dir : SortDir) (rows : List ρ) (after : Option SortCursor) (limit : ℕ) : List ρ :=
  (Keyset.after (S.place id) dir.lt (S.ordered id dir rows) (after.map S.bound)).take (limit + 1)

/-- What the service asks of a cursor: where the sort is by time, that the key is one. -/
def checkTime : Option SortCursor → Except AppError Unit
  | some c => if S.isTime then (c.time P).map fun _ => () else .ok ()
  | none => .ok ()

def cursorOf (r : ρ) : SortCursor := ⟨S.key r, id r⟩

/-- `services::…::list_sorted`, of the rows that match. -/
def listSorted (rows : List ρ) (cursor : Option String) (limit : Option ℕ) (dir : SortDir) :
    Except AppError (Page ρ) := do
  let after ← cursor.mapM (SortCursor.decode P)
  S.checkTime after
  .ok (Page.build (S.select id dir rows after (pageSize limit)) (pageSize limit)
    fun r => (S.cursorOf id r).encode)

end SortedBy

/-- All rows of a list, page by page from a cursor to the page that has none; nothing where a page is
refused, or there are more pages than the fuel allows. -/
def followPages {ρ : Type} (list : Option String → Except AppError (Page ρ)) :
    ℕ → Option String → Option (List ρ)
  | 0, _ => none
  | fuel + 1, cursor =>
      match list cursor with
      | .error _ => none
      | .ok page =>
          match page.nextCursor with
          | none => some page.items
          | some next => (followPages list fuel (some next)).map (page.items ++ ·)

/-! ## Following a list -/

namespace SortedBy

variable {P : Platform} {ρ : Type} {S : SortedBy P ρ} {id : ρ → Uuid128} {dir : SortDir} {rows : List ρ}

/-- The rows that come after a row's cursor, if it is one the list takes. -/
def cut (S : SortedBy P ρ) (id : ρ → Uuid128) (r : ρ) : Option (Position P) :=
  match S.checkTime (some (S.cursorOf id r)) with
  | .ok () => some (S.bound (S.cursorOf id r))
  | .error _ => none

lemma perm_ordered : (S.ordered id dir rows).Perm rows := List.perm_insertionSort _ _

lemma ordered_pairwise (hids : (rows.map id).Nodup) :
    (S.ordered id dir rows).Pairwise fun x y => dir.lt (S.place id x) (S.place id y) := by
  have : Std.Total fun x y : ρ => dir.le (S.place id x) (S.place id y) :=
    ⟨fun x y => SortDir.le_total (S.place id x) (S.place id y)⟩
  have : IsTrans ρ fun x y => dir.le (S.place id x) (S.place id y) :=
    ⟨fun x y z => SortDir.le_trans⟩
  have hle := List.pairwise_insertionSort (fun x y => dir.le (S.place id x) (S.place id y)) rows
  have hne : (S.ordered id dir rows).Pairwise fun x y => id x ≠ id y :=
    List.pairwise_map.mp ((perm_ordered.map id).nodup_iff.mpr hids)
  refine (hle.and hne).imp fun {x y} hxy => SortDir.lt_of_le hxy.1 fun hplace => hxy.2 ?_
  have := congrArg (fun p : Position P => (ofLex p).2) hplace
  exact BitVec.eq_of_toNat_eq this

lemma listSorted_encode (h : P.Laws) (cursor : Option SortCursor) (limit : Option ℕ) :
    S.listSorted id rows (cursor.map SortCursor.encode) limit dir =
      (S.checkTime cursor).map fun _ =>
        Page.build (S.select id dir rows cursor (pageSize limit)) (pageSize limit)
          fun r => (S.cursorOf id r).encode := by
  have hdecode : (cursor.map SortCursor.encode).mapM (SortCursor.decode P) = .ok cursor := by
    cases cursor with
    | none => rfl
    | some c =>
        rw [Option.map_some, Option.mapM_some, SortCursor.decode_encode h]
        rfl
  rw [listSorted, hdecode]
  cases hcheck : S.checkTime cursor <;> simp [hcheck, bind, Except.bind, Except.map]

lemma followPages_eq (h : P.Laws) (limit : Option ℕ) : ∀ (fuel : ℕ) (cursor : Option SortCursor),
    followPages (fun cursor => S.listSorted id rows cursor limit dir) fuel
        (cursor.map SortCursor.encode) =
      match S.checkTime cursor with
      | .error _ => none
      | .ok () => Keyset.follow (S.place id) dir.lt (S.cut id) (pageSize limit) (S.ordered id dir rows)
          fuel (cursor.map S.bound) := by
  intro fuel
  induction fuel with
  | zero =>
      intro cursor
      rw [followPages]
      cases S.checkTime cursor <;> rfl
  | succ fuel ih =>
      intro cursor
      rw [followPages, listSorted_encode h]
      cases hcheck : S.checkTime cursor with
      | error e => rfl
      | ok u =>
          obtain ⟨found, hfound⟩ : ∃ found, (Keyset.after (S.place id) dir.lt (S.ordered id dir rows)
            (cursor.map S.bound)).take (pageSize limit + 1) = found := ⟨_, rfl⟩
          simp only [Except.map, Page.build, select, Keyset.follow, hfound]
          by_cases hmore : pageSize limit < found.length
          · obtain ⟨r, hr⟩ : ∃ r, (found.take (pageSize limit)).getLast? = some r := by
              refine Option.isSome_iff_exists.mp (List.getLast?_isSome.mpr fun hnil => ?_)
              have hlength := congrArg List.length hnil
              rw [List.length_take, List.length_nil] at hlength
              have := pageSize_pos limit
              omega
            have hnext := ih (some (S.cursorOf id r))
            rw [Option.map_some, Option.map_some] at hnext
            simp only [hmore, if_true, hr, Option.map_some, Option.bind_some, hnext, cut]
            cases S.checkTime (some (S.cursorOf id r)) <;> rfl
          · simp only [hmore, if_false]

/-- **Following a list.**  From the first page to the last it gives the rows that match, each once and in
order, exactly when the cursor of each row that ends a page with more rows behind it is one the list
takes, and the rows after it are the rows after the row. -/
theorem followPages_iff (h : P.Laws) (hids : (rows.map id).Nodup) (limit : Option ℕ) :
    (∃ fuel, followPages (fun cursor => S.listSorted id rows cursor limit dir) fuel none =
        some (S.ordered id dir rows)) ↔
      ∀ r, EndsPage (pageSize limit) (S.ordered id dir rows) r →
        Cuts (S.place id) dir.lt (S.cut id) (S.ordered id dir rows) r := by
  rw [← Keyset.follow_iff (ordered_pairwise hids) (pageSize_pos limit)]
  refine exists_congr fun fuel => ?_
  have hfollow : followPages (fun cursor => S.listSorted id rows cursor limit dir) fuel none =
      Keyset.follow (S.place id) dir.lt (S.cut id) (pageSize limit) (S.ordered id dir rows) fuel none :=
    followPages_eq h limit fuel none
  rw [hfollow]

lemma cuts_of_bound {r : ρ} (hcheck : S.checkTime (some (S.cursorOf id r)) = .ok ())
    (hbound : S.bound (S.cursorOf id r) = S.place id r) :
    Cuts (S.place id) dir.lt (S.cut id) (S.ordered id dir rows) r :=
  ⟨S.place id r, by rw [cut, hcheck, hbound], fun _ _ => Iff.rfl⟩

lemma cuts_of_time (h : P.Laws) {r : ρ} {t : Timestamp} (hexpr : S.expr r = ofTime P t.instant)
    (hkey : S.key r = P.toRfc3339 t.instant) (htime : S.isTime = true) :
    Cuts (S.place id) dir.lt (S.cut id) (S.ordered id dir rows) r := by
  have hreads : (S.cursorOf id r).time P = .ok t.instant := by
    rw [SortCursor.time, cursorOf, hkey, h.readsTime]
    rfl
  refine cuts_of_bound ?_ ?_
  · rw [checkTime, if_pos htime, hreads]
    rfl
  · rw [bound, if_pos htime, hreads, place, hexpr]
    exact congrArg (fun t => position (ofTime P t) (id r)) (toTimestamptz_timestamp t)

lemma cuts_of_text {r : ρ} (hexpr : S.expr r = ofText P (S.key r)) (htext : S.isTime = false) :
    Cuts (S.place id) dir.lt (S.cut id) (S.ordered id dir rows) r := by
  have htime : ¬ S.isTime = true := Bool.eq_false_iff.mp htext
  refine cuts_of_bound ?_ ?_
  · rw [checkTime, if_neg htime]
  · rw [bound, if_neg htime, place, hexpr]
    rfl

end SortedBy

end Ridm.Paging
