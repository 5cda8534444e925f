import Mathlib.Data.String.Basic
import Ridm.Lib.SortedMap
import Ridm.Scim.Users

/-!
# PATCH

The operations of a PATCH (`parse_patch`), their paths (`parse_path`) and what they do to a document
(`apply_op`, `apply_patch`), of `api/src/services/scim.rs`.  A slice or an index out of range ends a request
in a panic, which is an outcome of its own here.

* `parsePath_panics_iff` — the slice between the brackets of a path is out of range exactly if a closing
  bracket stands before the first opening one, and none behind it.
* `applyItems_ne_panic` — the indices of the elements a filter picks stay in range, also while elements are
  removed.
* `applyPatch_panics_iff` — a list of operations panics exactly at an operation with such a path.
-/

namespace Ridm.Scim

/-- How a request ends without a result. -/
inductive Halt
  | refused (e : ScimError)
  | panicked
  deriving DecidableEq

/-- A computation that may be refused or panic. -/
abbrev Run := Except Halt

/-- `Err(ScimError::bad(..))`. -/
def refuse {α : Type} (scimType detail : String) : Run α := .error (.refused (.bad scimType detail))

/-- `?`, on a result of `ScimResult`. -/
def ofResult {α : Type} (r : ScimResult α) : Run α := r.mapError .refused

/-! ## Operations -/

/-- The operations of a PATCH. -/
inductive PatchKind
  | add | replace | remove
  deriving DecidableEq

def PatchKind.parse : String → Option PatchKind
  | "add" => some .add
  | "replace" => some .replace
  | "remove" => some .remove
  | _ => none

/-- One operation of a PATCH. -/
structure PatchOp where
  op : PatchKind
  path : Option String
  value : Option Value

def parsePatchOp (o : Value) : ScimResult PatchOp :=
  match (getCi o "op").bind Value.asStr with
  | none => .error (.bad "invalidSyntax" "each operation needs op")
  | some word =>
      match PatchKind.parse (toAsciiLowercase word) with
      | none => .error (.bad "invalidSyntax" ("unknown op `" ++ toAsciiLowercase word ++ "`"))
      | some op =>
          let path := ((getCi o "path").bind Value.asStr).map trim
          let value := getCi o "value"
          if op ≠ .remove ∧ value.isNone then
            .error (.bad "invalidValue" (toAsciiLowercase word ++ " needs a value"))
          else if op = .remove ∧ path.isNone then .error (.bad "noTarget" "remove needs a path")
          else .ok ⟨op, path, value⟩

def parsePatch (body : Value) : ScimResult (List PatchOp) :=
  match (getCi body "Operations").bind Value.asArray with
  | none => .error (.bad "invalidSyntax" "Operations is required")
  | some [] => .error (.bad "invalidSyntax" "Operations is empty")
  | some ops => ops.mapM parsePatchOp

/-! ## Paths -/

/-- What a path points at. -/
structure Target where
  attr : String
  filter : Option Filter
  sub : Option String

/-- `&s[start..stop]`. -/
def sliceOf (s : List Char) (start stop : ℕ) : Run (List Char) :=
  if start ≤ stop ∧ stop ≤ s.length then .ok ((s.take stop).drop start) else .error .panicked

/-- `str::rfind`, of one character. -/
def rfind (s : List Char) (c : Char) : Option ℕ :=
  if c ∈ s then some (s.length - 1 - s.reverse.idxOf c) else none

/-- What stands behind the brackets, without the dot. -/
def subOf (rest : List Char) : Option String :=
  let sub := trimStartMatches (String.ofList rest) '.'
  if sub.isEmpty then none else some sub

def parsePath (P : Platform) (path : String) : Run Target :=
  let path := stripSchema path
  let s := path.toList
  if '[' ∈ s then
    let first := s.idxOf '['
    match rfind s ']' with
    | none => refuse "invalidPath" "missing ]"
    | some last => do
        let attr ← sliceOf s 0 first
        let inner ← sliceOf s (first + 1) last
        let filter ← ofResult (parseFilter P (String.ofList inner))
        let rest ← sliceOf s (last + 1) s.length
        .ok ⟨String.ofList attr, some filter, subOf rest⟩
  else
    match splitOnce path '.' with
    | some (a, sub) => .ok ⟨a, none, some sub⟩
    | none => .ok ⟨path, none, none⟩

/-! ## Writing into a document

The members of an object are in the order of their names, as in the map. -/

/-- `Map::insert`. -/
def put (m : Members) (key : String) (value : Value) : Members := SortedMap.insertInto key value m

/-- `Map::remove`. -/
def remove (m : Members) (key : String) : Members := m.filter fun e => e.1 != key

def keyFor (m : Members) (name : String) : String :=
  ((m.map (·.1)).find? fun k => eqIgnoreAsciiCase k name).getD name

/-- A member of an object set under its stored name. -/
def putCi (m : Members) (name : String) (value : Value) : Members := put m (keyFor m name) value

/-- A member of an object removed under its stored name. -/
def removeCi (m : Members) (name : String) : Members := remove m (keyFor m name)

def setPath (m : Members) (attr : String) (sub : Option String) (value : Value) : Members :=
  let key := keyFor m attr
  match sub with
  | none => put m key value
  | some sub =>
      let inner := match m.get key with
        | some (.object inner) => inner
        | _ => []
      put m key (.object (putCi inner sub value))

def seedFromFilter : Filter → Members → Members
  | .cmp attr .eq value, into => put into attr value
  | .and a b, into => seedFromFilter b (seedFromFilter a into)
  | _, into => into

/-! ## Elements of a list -/

/-- The indices of the elements that satisfy the filter. -/
def hitsOf (P : Platform) (filter : Filter) (items : List Value) : List ℕ :=
  (List.range items.length).filter fun i => items[i]?.any (filter.matches P ·)

/-- `items.remove(i)`, one index after another. -/
def removeAll : List ℕ → List Value → Run (List Value)
  | [], items => .ok items
  | i :: hits, items => if i < items.length then removeAll hits (items.eraseIdx i) else .error .panicked

/-- `items[i] = change(items[i])`, one index after another. -/
def changeAll (change : Value → Value) : List ℕ → List Value → Run (List Value)
  | [], items => .ok items
  | i :: hits, items =>
      match items[i]? with
      | some item => changeAll change hits (items.set i (change item))
      | none => .error .panicked

/-- A change to the members of an object; another value stays. -/
def onMembers (change : Members → Members) : Value → Value
  | .object o => .object (change o)
  | v => v

def newElement (filter : Filter) (sub : Option String) (value : Value) : Value :=
  let element := seedFromFilter filter []
  match sub, value with
  | some sub, value => .object (put element sub value)
  | none, .object o => .object (o.foldl (fun m e => put m e.1 e.2) element)
  | none, _ => .object element

/-- What an operation does to the elements its filter picks. -/
def applyItems (P : Platform) (filter : Filter) (op : PatchKind) (sub : Option String)
    (value : Option Value) (items : List Value) : Run (List Value) :=
  let hits := hitsOf P filter items
  match op, sub with
  | .remove, none => removeAll hits.reverse items
  | .remove, some sub => changeAll (onMembers fun o => removeCi o sub) hits items
  | op, sub =>
      let value := value.getD .null
      if hits.isEmpty then
        if op = .replace then refuse "noTarget" "no element matches the path filter"
        else .ok (items ++ [newElement filter sub value])
      else
        match sub with
        | some sub => changeAll (onMembers fun o => putCi o sub value) hits items
        | none => changeAll (fun _ => value) hits items

/-! ## Operations on a document -/

/-- What an operation does to the members of a document at a path without a filter. -/
def applyPlain (m : Members) (op : PatchKind) (attr : String) (sub : Option String) (value : Option Value) :
    Members :=
  let key := keyFor m attr
  match op with
  | .remove =>
      match sub, m.get key with
      | none, _ => remove m key
      | some sub, some (.object inner) => put m key (.object (removeCi inner sub))
      | some _, _ => m
  | .add =>
      let value := value.getD .null
      match m.get key, value, sub with
      | some (.array cur), .array more, none => put m key (.array (cur ++ more))
      | some (.array cur), single, none => put m key (.array (cur ++ [single]))
      | _, _, _ => setPath m attr sub value
  | .replace => setPath m attr sub (value.getD .null)

/-- `apply_op`, of an operation with a path. -/
def applyAt (P : Platform) (m : Members) (op : PatchKind) (path : String) (value : Option Value) :
    Run Members := do
  let t ← parsePath P path
  match t.filter with
  | none => .ok (applyPlain m op t.attr t.sub value)
  | some filter =>
      let key := keyFor m t.attr
      match (m.get key).getD (.array []) with
      | .array items => do
          let items ← applyItems P filter op t.sub value items
          .ok (put m key (.array items))
      | _ => refuse "invalidPath" "filtered path on a single-valued attribute"

/-- The path a key without its filter is written with again. -/
def Target.path (t : Target) : String :=
  match t.sub with
  | some sub => t.attr ++ "." ++ sub
  | none => t.attr

/-- One member of a value without a path. -/
def applyMember (P : Platform) (op : PatchKind) (m : Members) (e : String × Value) : Run Members := do
  let t ← parsePath P e.1
  applyAt P m op t.path (some e.2)

def applyOp (P : Platform) (doc : Value) (op : PatchOp) : Run Value :=
  match doc, op.path with
  | .object m, some path => (applyAt P m op.op path op.value).map .object
  | .object m, none =>
      match op.value with
      | some (.object value) => (value.foldlM (applyMember P op.op) m).map .object
      | _ => refuse "invalidValue" "a value without a path must be an object"
  | _, _ => refuse "invalidValue" "resource is not an object"

def applyPatch (P : Platform) (doc : Value) (ops : List PatchOp) : Run Value := ops.foldlM (applyOp P) doc

/-! ## The slices of a path -/

/-- The condition on a path: a closing bracket stands before the first opening one, and none behind it. -/
def crosses (path : String) : Bool :=
  let s := (stripSchema path).toList
  decide ('[' ∈ s) && decide (']' ∈ s) && decide (']' ∉ s.dropWhile (· != '['))

variable {α β : Type} {g : α → Run β} {r : Run α} {s : List Char}

lemma bind_ne_panicked (hr : r ≠ .error .panicked)
    (hg : ∀ a, g a ≠ .error .panicked) : (r >>= g) ≠ .error .panicked := by
  cases r with
  | error e => exact fun h => hr (congrArg Except.error (Except.error.inj h))
  | ok a => exact hg a

lemma refuse_ne_panicked {α : Type} (scimType detail : String) :
    (refuse scimType detail : Run α) ≠ .error .panicked :=
  fun h => by cases Except.error.inj h

lemma ofResult_ne_panicked {α : Type} (r : ScimResult α) : ofResult r ≠ .error .panicked := by
  cases r with
  | error e => exact fun h => by cases Except.error.inj h
  | ok a => exact fun h => by cases h

lemma sliceOf_ok {start stop : ℕ} (h : start ≤ stop ∧ stop ≤ s.length) :
    sliceOf s start stop = .ok ((s.take stop).drop start) := if_pos h

lemma bracket_order (hopen : '[' ∈ s) (hclose : ']' ∈ s) :
    ∃ last, rfind s ']' = some last ∧ last < s.length ∧ s.idxOf '[' ≤ s.length ∧
      (s.idxOf '[' + 1 ≤ last ↔ ']' ∈ s.dropWhile (· != '[')) := by
  refine ⟨_, if_pos hclose, ?_, List.idxOf_le_length, ?_⟩
  · have hne := List.length_pos_of_mem hclose
    omega
  · obtain ⟨start, rest, hs, hstart⟩ := List.eq_append_cons_of_mem hopen
    have hfirst : s.idxOf '[' = start.length := by
      rw [hs, List.idxOf_append_of_notMem hstart, List.idxOf_cons_self, Nat.add_zero]
    have hdrop : s.dropWhile (· != '[') = '[' :: rest := by
      rw [hs, List.dropWhile_append_of_pos]
      · rfl
      · intro c hc
        exact bne_iff_ne.mpr fun h => hstart (h ▸ hc)
    have hreverse : s.reverse = rest.reverse ++ '[' :: start.reverse := by
      rw [hs, List.reverse_append, List.reverse_cons, List.append_assoc, List.singleton_append]
    have hlength : s.length = start.length + rest.length + 1 := by
      rw [hs, List.length_append, List.length_cons]
      omega
    rw [hfirst, hdrop, hreverse, hlength]
    by_cases hrest : ']' ∈ rest
    · have hlt : rest.reverse.idxOf ']' < rest.length := by
        rw [← List.length_reverse]
        exact List.idxOf_lt_length_of_mem (List.mem_reverse.mpr hrest)
      rw [List.idxOf_append_of_mem (List.mem_reverse.mpr hrest)]
      exact iff_of_true (by omega) (List.mem_cons_of_mem _ hrest)
    · rw [List.idxOf_append_of_notMem (fun h => hrest (List.mem_reverse.mp h)), List.length_reverse]
      refine iff_of_false (by omega) ?_
      intro h
      rcases List.mem_cons.mp h with h | h
      · cases h
      · exact hrest h

/-- **When the path of an operation panics.** -/
lemma parsePath_panics_iff (P : Platform) (path : String) :
    parsePath P path = .error .panicked ↔ crosses path = true := by
  rw [parsePath, crosses]
  dsimp only
  by_cases hopen : '[' ∈ (stripSchema path).toList
  · rw [if_pos hopen, decide_eq_true hopen, Bool.true_and]
    by_cases hclose : ']' ∈ (stripSchema path).toList
    · obtain ⟨last, hlast, hlt, hle, horder⟩ := bracket_order hopen hclose
      rw [hlast, decide_eq_true hclose, Bool.true_and, decide_eq_true_eq, ← horder]
      dsimp only
      rw [sliceOf_ok ⟨Nat.zero_le _, hle⟩]
      by_cases hbehind : (stripSchema path).toList.idxOf '[' + 1 ≤ last
      · refine iff_of_false ?_ (not_not.mpr hbehind)
        rw [sliceOf_ok ⟨hbehind, Nat.le_of_lt hlt⟩]
        refine bind_ne_panicked (fun h => by cases h) fun attr => ?_
        refine bind_ne_panicked (fun h => by cases h) fun inner => ?_
        refine bind_ne_panicked (ofResult_ne_panicked _) fun filter => ?_
        rw [sliceOf_ok ⟨hlt, Nat.le_refl _⟩]
        exact fun h => by cases h
      · refine iff_of_true ?_ hbehind
        rw [sliceOf, sliceOf, if_neg fun h => hbehind h.1]
        rfl
    · rw [rfind, if_neg hclose, decide_eq_false hclose, Bool.false_and]
      exact iff_of_false (refuse_ne_panicked _ _) Bool.false_ne_true
  · rw [if_neg hopen, decide_eq_false hopen, Bool.false_and, Bool.false_and]
    refine iff_of_false ?_ Bool.false_ne_true
    cases splitOnce (stripSchema path) '.' with
    | none => exact fun h => by cases h
    | some p => exact fun h => by cases h

/-! ## The indices of elements -/

lemma removeAll_ne_panicked : ∀ (hits : List ℕ) (items : List Value), hits.Pairwise (· > ·) →
    (∀ i ∈ hits, i < items.length) → removeAll hits items ≠ .error .panicked := by
  intro hits
  induction hits with
  | nil => exact fun _ _ _ h => by cases h
  | cons i hits ih =>
      intro items hdesc hlt
      obtain ⟨hi, hdesc⟩ := List.pairwise_cons.mp hdesc
      have hlti := hlt i List.mem_cons_self
      rw [removeAll, if_pos hlti]
      refine ih _ hdesc fun j hj => ?_
      have hj' := hi j hj
      rw [List.length_eraseIdx_of_lt hlti]
      omega

lemma changeAll_ne_panicked (change : Value → Value) : ∀ (hits : List ℕ) (items : List Value),
    (∀ i ∈ hits, i < items.length) → changeAll change hits items ≠ .error .panicked := by
  intro hits
  induction hits with
  | nil => exact fun _ _ h => by cases h
  | cons i hits ih =>
      intro items hlt
      have hlti := hlt i List.mem_cons_self
      rw [changeAll, List.getElem?_eq_getElem hlti]
      refine ih _ fun j hj => ?_
      rw [List.length_set]
      exact hlt j (List.mem_cons_of_mem _ hj)

lemma hitsOf_lt (P : Platform) (filter : Filter) (items : List Value) :
    ∀ i ∈ hitsOf P filter items, i < items.length :=
  fun _ hi => List.mem_range.mp (List.mem_of_mem_filter hi)

/-- **The indices stay in range**, also while elements are removed, the last one first. -/
lemma applyItems_ne_panicked (P : Platform) (filter : Filter) (op : PatchKind) (sub : Option String)
    (value : Option Value) (items : List Value) : applyItems P filter op sub value items ≠ .error .panicked := by
  have hlt := hitsOf_lt P filter items
  have hdesc : (hitsOf P filter items).reverse.Pairwise (· > ·) := by
    rw [List.pairwise_reverse]
    exact List.Pairwise.filter _ List.pairwise_lt_range
  rw [applyItems.eq_def]
  dsimp only
  split
  · exact removeAll_ne_panicked _ _ hdesc fun i hi => hlt i (List.mem_reverse.mp hi)
  · exact changeAll_ne_panicked _ _ _ hlt
  · split_ifs
    · exact refuse_ne_panicked _ _
    · exact fun h => by cases h
    · split
      · exact changeAll_ne_panicked _ _ _ hlt
      · exact changeAll_ne_panicked _ _ _ hlt

/-! ## Operations that panic -/

lemma foldlM_error_iff {α β ε : Type} (step : β → α → Except ε β) (e : ε) : ∀ (l : List α) (b : β),
    l.foldlM step b = .error e ↔ ∃ done x rest b', l = done ++ x :: rest ∧ done.foldlM step b = .ok b' ∧
      step b' x = .error e := by
  intro l
  induction l with
  | nil =>
      intro b
      refine iff_of_false (fun h => by cases h) ?_
      rintro ⟨done, x, rest, b', hl, -, -⟩
      exact absurd hl.symm (List.append_ne_nil_of_right_ne_nil _ (List.cons_ne_nil _ _))
  | cons y l ih =>
      intro b
      rw [List.foldlM_cons]
      cases hy : step b y with
      | error e' =>
          constructor
          · intro h
            exact ⟨[], y, l, b, rfl, rfl, hy.trans (congrArg Except.error (Except.error.inj h))⟩
          · rintro ⟨done, x, rest, b', hl, hdone, hx⟩
            cases done with
            | nil =>
                cases hdone
                obtain ⟨rfl, rfl⟩ := List.cons.inj hl
                exact hy.symm.trans hx
            | cons z done =>
                obtain ⟨rfl, -⟩ := List.cons.inj hl
                rw [List.foldlM_cons, hy] at hdone
                cases hdone
      | ok b₁ =>
          refine (ih b₁).trans ?_
          constructor
          · rintro ⟨done, x, rest, b', rfl, hdone, hx⟩
            refine ⟨y :: done, x, rest, b', rfl, ?_, hx⟩
            rw [List.foldlM_cons, hy]
            exact hdone
          · rintro ⟨done, x, rest, b', hl, hdone, hx⟩
            cases done with
            | nil =>
                cases hdone
                obtain ⟨rfl, rfl⟩ := List.cons.inj hl
                rw [hy] at hx
                cases hx
            | cons z done =>
                obtain ⟨rfl, rfl⟩ := List.cons.inj hl
                rw [List.foldlM_cons, hy] at hdone
                exact ⟨done, x, rest, b', rfl, hdone, hx⟩

lemma bind_panics_iff :
    (r >>= g) = .error .panicked ↔ r = .error .panicked ∨ ∃ a, r = .ok a ∧ g a = .error .panicked := by
  cases r with
  | error e =>
      refine ⟨fun h => .inl (congrArg Except.error (Except.error.inj h)), ?_⟩
      rintro (h | ⟨_, h, _⟩)
      · exact congrArg Except.error (Except.error.inj h)
      · cases h
  | ok a =>
      refine ⟨fun h => .inr ⟨a, rfl, h⟩, ?_⟩
      rintro (h | ⟨a', ha, h⟩)
      · cases h
      · cases ha
        exact h

lemma map_panics_iff (g : α → β) :
    r.map g = .error .panicked ↔ r = .error .panicked := by
  cases r with
  | error e =>
      exact ⟨fun h => congrArg Except.error (Except.error.inj h),
        fun h => congrArg Except.error (Except.error.inj h)⟩
  | ok a => exact iff_of_false (fun h => by cases h) fun h => by cases h

lemma applyAt_panics_iff (P : Platform) (m : Members) (op : PatchKind) (path : String) (value : Option Value) :
    applyAt P m op path value = .error .panicked ↔ crosses path = true := by
  rw [applyAt, bind_panics_iff, parsePath_panics_iff, or_iff_left]
  rintro ⟨t, -, hpanics⟩
  revert hpanics
  cases t.filter with
  | none => exact fun h => by cases h
  | some filter =>
      dsimp only
      split
      · exact bind_ne_panicked (applyItems_ne_panicked _ _ _ _ _ _) fun items h => by cases h
      · exact refuse_ne_panicked _ _

/-- The condition on a member of a value without a path: its key crosses, or what it is written as again. -/
def MemberCrosses (P : Platform) (e : String × Value) : Prop :=
  crosses e.1 = true ∨ ∃ t, parsePath P e.1 = .ok t ∧ crosses t.path = true

lemma applyMember_panics_iff (P : Platform) (op : PatchKind) (m : Members) (e : String × Value) :
    applyMember P op m e = .error .panicked ↔ MemberCrosses P e := by
  rw [applyMember, bind_panics_iff, parsePath_panics_iff]
  simp only [applyAt_panics_iff]
  rfl

/-- The condition on an operation at its turn: its path crosses or, without a path, a member of its value
that comes to its turn does. -/
def OpCrosses (P : Platform) (doc : Value) (op : PatchOp) : Prop :=
  match doc, op.path, op.value with
  | .object _, some path, _ => crosses path = true
  | .object m, none, some (.object value) =>
      ∃ done e rest m', value = done ++ e :: rest ∧ done.foldlM (applyMember P op.op) m = .ok m' ∧
        MemberCrosses P e
  | _, _, _ => False

lemma applyOp_panics_iff (P : Platform) (doc : Value) (op : PatchOp) :
    applyOp P doc op = .error .panicked ↔ OpCrosses P doc op := by
  obtain ⟨kind, path, value⟩ := op
  cases doc with
  | object m =>
      cases path with
      | some path => exact (map_panics_iff _).trans (applyAt_panics_iff P m kind path value)
      | none =>
          cases value with
          | none => exact iff_of_false (refuse_ne_panicked _ _) id
          | some v =>
              cases v with
              | object value =>
                  refine (map_panics_iff _).trans ((foldlM_error_iff _ _ _ _).trans ?_)
                  simp only [applyMember_panics_iff]
                  rfl
              | _ => exact iff_of_false (refuse_ne_panicked _ _) id
  | _ => exact iff_of_false (refuse_ne_panicked _ _) id

/-- **When a PATCH panics.**  A list of operations panics on a document exactly if one of them, at its turn,
has a path with a closing bracket before the first opening one and none behind it, or has no path but a
member, at its turn, whose key is such a path or is written as one again. -/
theorem applyPatch_panics_iff (P : Platform) (doc : Value) (ops : List PatchOp) :
    applyPatch P doc ops ≠ .error .panicked ↔
      ∀ done op rest doc', ops = done ++ op :: rest → applyPatch P doc done = .ok doc' →
        ¬ OpCrosses P doc' op := by
  rw [applyPatch, Ne, foldlM_error_iff]
  simp only [applyOp_panics_iff, not_exists, not_and]
  rfl

def crossedRequest : Value :=
  .object [("Operations", .array [.object [("op", .string "remove"), ("path", .string "a]b[")]])]

/-- **A path that panics**, in a request that `parse_patch` takes, on an empty document. -/
theorem crossed_path_panics : ∃ ops, parsePatch crossedRequest = .ok ops ∧
    ∀ P, applyPatch P (.object []) ops = .error .panicked :=
  ⟨[⟨.remove, some "a]b[", none⟩], rfl, fun _ => rfl⟩

end Ridm.Scim
