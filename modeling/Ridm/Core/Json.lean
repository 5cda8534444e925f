import Mathlib.Tactic.Common

/-!
# JSON values

`serde_json::Value` and its `Map`, as the services read and build them.  A number is kept as the
text serde prints for it: nothing here computes with one.

An object is a list of members.  `Members.get` reads the first member of a name and
`Members.insert` replaces it in place, so a list that only grows through `insert` has one member
per name, as a map does.
-/

namespace Ridm

/-- `serde_json::Value`. -/
inductive Value
  | null
  | bool (b : Bool)
  | number (text : String)
  | string (s : String)
  | array (items : List Value)
  | object (members : List (String × Value))
  deriving Inhabited

namespace Value

mutual

/-- Equality of values is decidable; written out, since the type is nested. -/
def decEq : (a b : Value) → Decidable (a = b)
  | .null, b => by cases b <;> first | exact .isTrue rfl | exact .isFalse nofun
  | .bool x, b => by
      cases b with
      | bool y => exact decidable_of_iff (x = y) (by simp)
      | _ => exact .isFalse nofun
  | .number x, b => by
      cases b with
      | number y => exact decidable_of_iff (x = y) (by simp)
      | _ => exact .isFalse nofun
  | .string x, b => by
      cases b with
      | string y => exact decidable_of_iff (x = y) (by simp)
      | _ => exact .isFalse nofun
  | .array xs, b => by
      cases b with
      | array ys =>
          have := decEqItems xs ys
          exact decidable_of_iff (xs = ys) (by simp)
      | _ => exact .isFalse nofun
  | .object ms, b => by
      cases b with
      | object ns =>
          have := decEqMembers ms ns
          exact decidable_of_iff (ms = ns) (by simp)
      | _ => exact .isFalse nofun

/-- Equality of the items of two arrays. -/
def decEqItems : (xs ys : List Value) → Decidable (xs = ys)
  | [], ys => by cases ys <;> first | exact .isTrue rfl | exact .isFalse nofun
  | x :: xs, ys => by
      cases ys with
      | nil => exact .isFalse nofun
      | cons y ys =>
          have hhead := decEq x y
          have htail := decEqItems xs ys
          exact decidable_of_iff (x = y ∧ xs = ys) (by simp)

/-- Equality of the members of two objects. -/
def decEqMembers : (ms ns : List (String × Value)) → Decidable (ms = ns)
  | [], ns => by cases ns <;> first | exact .isTrue rfl | exact .isFalse nofun
  | (k, v) :: ms, ns => by
      cases ns with
      | nil => exact .isFalse nofun
      | cons n ns =>
          have hhead := decEq v n.2
          have htail := decEqMembers ms ns
          exact decidable_of_iff ((k = n.1 ∧ v = n.2) ∧ ms = ns) (by
            obtain ⟨k', v'⟩ := n
            simp)

end

instance : DecidableEq Value := decEq

/-- `Value::as_str`. -/
def asStr : Value → Option String
  | .string s => some s
  | _ => none

/-- `Value::as_bool`. -/
def asBool : Value → Option Bool
  | .bool b => some b
  | _ => none

/-- `Value::as_array`. -/
def asArray : Value → Option (List Value)
  | .array xs => some xs
  | _ => none

end Value

/-- `serde_json::Map<String, Value>`. -/
abbrev Members := List (String × Value)

namespace Members

/-- `Map::get`. -/
def get : Members → String → Option Value
  | [], _ => none
  | (k', v) :: m, k => if k' = k then some v else get m k

/-- `Map::insert`. -/
def insert : Members → String → Value → Members
  | [], k, v => [(k, v)]
  | (k', v') :: m, k, v => if k' = k then (k, v) :: m else (k', v') :: insert m k v

/-- `map.entry(k).or_insert(v)`. -/
def orInsert (m : Members) (k : String) (v : Value) : Members :=
  if (m.get k).isSome then m else m.insert k v

@[simp] lemma get_nil (k : String) : get [] k = none := rfl

lemma get_cons (k' k : String) (v : Value) (m : Members) :
    get ((k', v) :: m) k = if k' = k then some v else m.get k := rfl

lemma get_insert (m : Members) (k k' : String) (v : Value) :
    (m.insert k v).get k' = if k = k' then some v else m.get k' := by
  induction m with
  | nil => simp [insert, get_cons]
  | cons e m ih =>
      obtain ⟨j, u⟩ := e
      rw [insert]
      by_cases hj : j = k
      · subst hj
        simp only [if_true, get_cons]
        split_ifs <;> rfl
      · rw [if_neg hj, get_cons, ih, get_cons]
        by_cases hk : k = k'
        · subst hk
          simp [hj]
        · simp [hk]

lemma get_orInsert (m : Members) (k k' : String) (v : Value) :
    (m.orInsert k v).get k' = if k = k' ∧ m.get k = none then some v else m.get k' := by
  rw [orInsert]
  cases hk : m.get k with
  | none => simp [get_insert]
  | some u => simp

lemma get_filter_ne (m : Members) (k k' : String) :
    get (m.filter fun e => e.1 != k) k' = if k = k' then none else m.get k' := by
  induction m with
  | nil => simp
  | cons e m ih =>
      obtain ⟨j, u⟩ := e
      by_cases hj : j = k
      · subst hj
        rw [List.filter_cons_of_neg (by simp), ih, get_cons]
        split_ifs <;> rfl
      · rw [List.filter_cons_of_pos (by simpa using hj), get_cons, ih, get_cons]
        by_cases hk : k = k'
        · subst hk
          simp [hj]
        · simp [hk]

/-- One member per name, as in a map. -/
def Keyed (m : Members) : Prop := (m.map (·.1)).Nodup

instance (m : Members) : Decidable m.Keyed := inferInstanceAs (Decidable (m.map (·.1)).Nodup)

lemma keyed_cons {k : String} {v : Value} {m : Members} :
    Keyed ((k, v) :: m) ↔ k ∉ m.map (·.1) ∧ m.Keyed := List.nodup_cons

lemma get_eq_none {m : Members} {k : String} (h : k ∉ m.map (·.1)) : m.get k = none := by
  induction m with
  | nil => rfl
  | cons e m ih =>
      rw [List.map_cons, List.mem_cons, not_or] at h
      rw [get_cons, if_neg (Ne.symm h.1), ih h.2]

lemma mem_keys_insert {m : Members} {k k' : String} {v : Value}
    (h : k' ∈ (m.insert k v).map (·.1)) : k' = k ∨ k' ∈ m.map (·.1) := by
  induction m with
  | nil => exact .inl (List.mem_singleton.mp h)
  | cons e m ih =>
      obtain ⟨j, u⟩ := e
      rw [insert] at h
      split_ifs at h with hj
      · rw [List.map_cons, List.mem_cons] at h
        rcases h with h | h
        · exact .inl h
        · exact .inr (List.mem_cons_of_mem _ h)
      · rw [List.map_cons, List.mem_cons] at h
        rcases h with h | h
        · exact .inr (h ▸ List.mem_cons_self)
        · rcases ih h with h | h
          · exact .inl h
          · exact .inr (List.mem_cons_of_mem _ h)

lemma Keyed.insert {m : Members} (h : m.Keyed) (k : String) (v : Value) : (m.insert k v).Keyed := by
  induction m with
  | nil => exact keyed_cons.mpr ⟨List.not_mem_nil, List.nodup_nil⟩
  | cons e m ih =>
      obtain ⟨j, u⟩ := e
      obtain ⟨hj, hm⟩ := keyed_cons.mp h
      rw [Members.insert]
      split_ifs with hjk
      · subst hjk
        exact keyed_cons.mpr ⟨hj, hm⟩
      · refine keyed_cons.mpr ⟨?_, ih hm⟩
        intro hmem
        rcases mem_keys_insert hmem with h | h
        · exact hjk h
        · exact hj h

lemma Keyed.filter {m : Members} (h : m.Keyed) (p : String × Value → Bool) :
    Keyed (m.filter p) :=
  List.Nodup.sublist (List.Sublist.map _ List.filter_sublist) h

end Members

/-- Indexing a value by a name (`value[name]`, `Value::get`): only objects have members. -/
def Value.member : Value → String → Option Value
  | .object m, k => Members.get m k
  | _, _ => none

end Ridm
