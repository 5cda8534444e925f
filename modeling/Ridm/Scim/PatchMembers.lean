import Ridm.Scim.Patch
import Ridm.Scim.Precedence

/-!
# PATCH without a path

An operation without a path stands for its members, each with its name as the path.  `apply_op` parses each
name and writes it out again, without its filter, as the path of an operation of its own.

* `PlainKeys` — no name, up to the first that is refused, has a filter or is behind a schema twice.
* `pathless_iff` — names for which the two are the same on every document, for all values and after every
  member, are exactly these.
* `filter_dropped` — an address of a user that becomes the list of all of them.
-/

namespace Ridm.Scim

/-- The operations that a value without a path stands for. -/
def withPaths (op : PatchKind) (ms : Members) : List PatchOp := ms.map fun e => ⟨op, some e.1, some e.2⟩

def withoutPath (op : PatchKind) (ms : Members) : PatchOp := ⟨op, none, some (.object ms)⟩

/-- The condition on the names: none has a filter, or the URN of a schema behind one, up to the first that
is refused. -/
def PlainKeys (P : Platform) : List String → Prop
  | [] => True
  | k :: ks =>
      match parsePath P k with
      | .ok t => (t.filter = none ∧ stripSchema t.path = t.path) ∧ PlainKeys P ks
      | .error _ => True

/-! ## The members of both -/

/-- The members of a document after the operations with paths. -/
def applyEach (P : Platform) (op : PatchKind) (m : Members) (ms : Members) : Run Members :=
  ms.foldlM (fun m e => applyAt P m op e.1 (some e.2)) m

variable {P : Platform} {op : PatchKind}

lemma map_object_injective {r r' : Run Members} (h : r.map Value.object = r'.map Value.object) : r = r' := by
  cases r with
  | error e =>
      cases r' with
      | error e' => exact congrArg Except.error (Except.error.inj h)
      | ok m' => cases h
  | ok m =>
      cases r' with
      | error e' => cases h
      | ok m' => exact congrArg Except.ok (Value.object.inj (Except.ok.inj h))

lemma applyPatch_withPaths (ms : Members) : ∀ m : Members,
    applyPatch P (.object m) (withPaths op ms) = (applyEach P op m ms).map .object := by
  induction ms with
  | nil => exact fun _ => rfl
  | cons e ms ih =>
      intro m
      rw [applyEach, List.foldlM_cons]
      show ((applyAt P m op e.1 (some e.2)).map .object >>= fun doc => applyPatch P doc (withPaths op ms)) = _
      cases applyAt P m op e.1 (some e.2) with
      | error err => rfl
      | ok m' => exact ih m'

lemma same_iff (m ms : Members) :
    applyOp P (.object m) (withoutPath op ms) = applyPatch P (.object m) (withPaths op ms) ↔
      ms.foldlM (applyMember P op) m = applyEach P op m ms := by
  rw [applyPatch_withPaths]
  exact ⟨map_object_injective, congrArg (Except.map Value.object)⟩

/-! ## What is written out again -/

variable {name : String} {a b : String} {p : String} {c : Char}

lemma splitOnce_joins {s a b : String} (h : splitOnce s c = some (a, b)) :
    s = a ++ String.singleton c ++ b := by
  rw [splitOnce] at h
  split at h
  · cases h
  · rename_i d rest hdrop
    simp only [Option.some.injEq, Prod.mk.injEq] at h
    obtain ⟨rfl, rfl⟩ := h
    have hd : d = c := by
      have hhead := List.head?_dropWhile_not (· != c) s.toList
      rw [hdrop] at hhead
      simpa using hhead
    have hjoin := List.takeWhile_append_dropWhile (p := (· != c)) (l := s.toList)
    rw [hd] at hdrop
    rw [← String.toList_inj, String.toList_append, String.toList_append, String.toList_ofList,
      String.toList_ofList, String.toList_singleton, List.append_assoc, List.singleton_append, ← hdrop, hjoin]

lemma notMem_take_idxOf (c : Char) (s : List Char) : c ∉ s.take (s.idxOf c) := by
  induction s with
  | nil => exact List.not_mem_nil
  | cons d s ih =>
      by_cases hd : d = c
      · rw [hd, List.idxOf_cons_self]
        exact List.not_mem_nil
      · rw [List.idxOf_cons_ne _ hd, List.take_succ_cons]
        intro h
        rcases List.mem_cons.mp h with h | h
        · exact hd h.symm
        · exact ih h

lemma notMem_drop_rfind {s : List Char} {last : ℕ} (h : rfind s c = some last) :
    c ∉ s.drop (last + 1) := by
  rw [rfind] at h
  split_ifs at h with hmem
  cases h
  have hlt : s.reverse.idxOf c < s.length := by
    rw [← List.length_reverse]
    exact List.idxOf_lt_length_of_mem (List.mem_reverse.mpr hmem)
  have hdrop : s.drop (s.length - 1 - s.reverse.idxOf c + 1) = (s.reverse.take (s.reverse.idxOf c)).reverse := by
    rw [List.take_reverse, List.reverse_reverse]
    congr 1
    omega
  rw [hdrop, List.mem_reverse]
  exact notMem_take_idxOf c s.reverse

/-- No closing bracket stands behind an opening one. -/
def Unnested (s : List Char) : Prop := ∃ a b, s = a ++ b ∧ '[' ∉ a ∧ ']' ∉ b

lemma Unnested.suffix {s t : List Char} (h : Unnested s) (hsuffix : t <:+ s) : Unnested t := by
  obtain ⟨a, b, rfl, ha, hb⟩ := h
  rw [List.suffix_iff_eq_drop.mp hsuffix, List.drop_append]
  exact ⟨_, _, rfl, fun h => ha (List.mem_of_mem_drop h), fun h => hb (List.mem_of_mem_drop h)⟩

lemma stripPrefix_drop {s schema rest : String} (h : stripPrefix s schema = some rest) :
    rest.toList = s.toList.drop schema.toList.length ∧ schema.toList.length ≤ s.toList.length := by
  rw [stripPrefix] at h
  split_ifs at h with hstart
  cases h
  exact ⟨String.toList_ofList, (List.isPrefixOf_iff_prefix.mp hstart).length_le⟩

lemma stripSchema_cases (s : String) : stripSchema s = s ∨
    (stripSchema s).toList <:+ s.toList ∧ (stripSchema s).toList.length < s.toList.length := by
  have hbehind : ∀ schema rest, 0 < schema.toList.length → stripPrefix s schema = some rest →
      (trimStartMatches rest ':').toList <:+ s.toList ∧
        (trimStartMatches rest ':').toList.length < s.toList.length := by
    intro schema rest hpos hrest
    obtain ⟨hdrop, hle⟩ := stripPrefix_drop hrest
    rw [trimStartMatches, String.toList_ofList, hdrop]
    have htrim := List.dropWhile_suffix (l := s.toList.drop schema.toList.length) (· == ':')
    refine ⟨htrim.trans (List.drop_suffix _ _), ?_⟩
    have hlen := htrim.length_le
    rw [List.length_drop] at hlen
    omega
  rw [stripSchema]
  cases huser : stripPrefix s userSchema with
  | some rest => exact .inr (hbehind _ _ (by decide) huser)
  | none =>
      cases hgroup : stripPrefix s groupSchema with
      | some rest => exact .inr (hbehind _ _ (by decide) hgroup)
      | none => exact .inl rfl

lemma stripSchema_suffix (s : String) : (stripSchema s).toList <:+ s.toList := by
  rcases stripSchema_cases s with h | h
  · exact ⟨[], congrArg String.toList h⟩
  · exact h.1

lemma bind_ok_iff {α β : Type} {r : Run α} {g : α → Run β} {b : β} :
    (r >>= g) = .ok b ↔ ∃ a, r = .ok a ∧ g a = .ok b := by
  cases r with
  | error e => exact ⟨fun h => (by cases h), fun ⟨_, h, _⟩ => (by cases h)⟩
  | ok a =>
      refine ⟨fun h => ⟨a, rfl, h⟩, ?_⟩
      rintro ⟨a', ha, h⟩
      cases ha
      exact h

lemma sliceOf_eq {s l : List Char} {start stop : ℕ} (h : sliceOf s start stop = .ok l) :
    l = (s.take stop).drop start := by
  rw [sliceOf] at h
  split_ifs at h
  exact (Except.ok.inj h).symm

lemma unnested_path {attr rest : List Char} (f : Option Filter) (hattr : '[' ∉ attr) (hrest : ']' ∉ rest) :
    Unnested (Target.path ⟨String.ofList attr, f, subOf rest⟩).toList := by
  rw [Target.path, subOf]
  dsimp only
  split_ifs
  · exact ⟨attr, [], by simp, hattr, List.not_mem_nil⟩
  · dsimp only
    refine ⟨attr, '.' :: (trimStartMatches (String.ofList rest) '.').toList, ?_, hattr, ?_⟩
    · rw [String.toList_append, String.toList_append, String.toList_ofList, List.append_assoc]
      rfl
    · rw [trimStartMatches, String.toList_ofList, String.toList_ofList]
      intro h
      rcases List.mem_cons.mp h with h | h
      · cases h
      · exact hrest ((List.dropWhile_suffix _).subset h)

variable {m : Members} {k : String} {t : Target}

/-- **What a name is parsed to**: without a filter the name as it is, or a filter between an attribute
without an opening bracket and a sub-attribute without a closing one. -/
lemma parsePath_cases (h : parsePath P k = .ok t) :
    (t.filter = none ∧ t.path = stripSchema k ∧ '[' ∉ t.path.toList) ∨
      (∃ f, t.filter = some f) ∧ Unnested t.path.toList := by
  rw [parsePath] at h
  dsimp only at h
  by_cases hopen : '[' ∈ (stripSchema k).toList
  · rw [if_pos hopen] at h
    cases hlast : rfind (stripSchema k).toList ']' with
    | none =>
        rw [hlast] at h
        cases h
    | some last =>
        rw [hlast] at h
        simp only [bind_ok_iff] at h
        obtain ⟨attr, hattr, inner, -, f, -, rest, hrest, ht⟩ := h
        cases ht
        rw [sliceOf_eq hattr, sliceOf_eq hrest, List.drop_zero, List.take_length]
        exact .inr ⟨⟨f, rfl⟩, unnested_path _ (notMem_take_idxOf _ _) (notMem_drop_rfind hlast)⟩
  · rw [if_neg hopen] at h
    left
    cases hsplit : splitOnce (stripSchema k) '.' with
    | none =>
        rw [hsplit] at h
        cases h
        exact ⟨rfl, rfl, hopen⟩
    | some p =>
        rw [hsplit] at h
        cases h
        have hpath : Target.path ⟨p.1, none, some p.2⟩ = stripSchema k := (splitOnce_joins hsplit).symm
        exact ⟨rfl, hpath, hpath ▸ hopen⟩

/-! ## Names without filters -/

lemma path_of_plain (ht : parsePath P k = .ok t) (hfilter : t.filter = none) :
    t.path = stripSchema k := by
  rcases parsePath_cases ht with ⟨-, hpath, -⟩ | ⟨⟨f, hf⟩, -⟩
  · exact hpath
  · rw [hfilter] at hf
    cases hf

lemma parsePath_path (ht : parsePath P k = .ok t) (hfilter : t.filter = none)
    (hstrip : stripSchema t.path = t.path) : parsePath P t.path = .ok t := by
  have hpath := path_of_plain ht hfilter
  rw [hpath] at hstrip ⊢
  rw [← ht, parsePath, parsePath, hstrip]

lemma applyAt_plain (ht : parsePath P k = .ok t) (hfilter : t.filter = none)
    (m : Members) (value : Option Value) :
    applyAt P m op k value = .ok (applyPlain m op t.attr t.sub value) := by
  rw [applyAt, ht]
  dsimp only [bind, Except.bind]
  rw [hfilter]

lemma applyMember_plain (ht : parsePath P k = .ok t) (hfilter : t.filter = none)
    (hstrip : stripSchema t.path = t.path) (m : Members) (v : Value) :
    applyMember P op m (k, v) = .ok (applyPlain m op t.attr t.sub (some v)) := by
  rw [applyMember, ht]
  exact applyAt_plain (parsePath_path ht hfilter hstrip) hfilter m _

/-- **Plain names are the same with and without a path.** -/
lemma foldlM_plain : ∀ (ms m : Members), PlainKeys P (ms.map (·.1)) →
    ms.foldlM (applyMember P op) m = applyEach P op m ms := by
  intro ms
  induction ms with
  | nil => exact fun _ _ => rfl
  | cons e ms ih =>
      obtain ⟨k, v⟩ := e
      intro m hplain
      rw [List.map_cons, PlainKeys] at hplain
      rw [applyEach, List.foldlM_cons, List.foldlM_cons]
      cases ht : parsePath P k with
      | error err =>
          have hmember : applyMember P op m (k, v) = .error err := by rw [applyMember, ht]; rfl
          have hat : applyAt P m op k (some v) = .error err := by rw [applyAt, ht]; rfl
          rw [hmember, hat]
          rfl
      | ok t =>
          rw [ht] at hplain
          obtain ⟨⟨hfilter, hstrip⟩, hplain⟩ := hplain
          rw [applyMember_plain ht hfilter hstrip, applyAt_plain ht hfilter]
          exact ih _ hplain

/-! ## Documents of nulls

Written with nulls, a document has no lists that an add or a filter could find, and a value that is no null
stands only where it was written. -/

lemma get_eq_lookup (m : Members) (k : String) : m.get k = m.lookup k := by
  induction m with
  | nil => rfl
  | cons e m ih =>
      obtain ⟨k', v⟩ := e
      rw [Members.get_cons, SortedMap.lookup_cons_eq, ih]
      simp only [eq_comm]

lemma get_put (m : Members) (key : String) (v : Value) (k : String) :
    (put m key v).get k = if k = key then some v else m.get k := by
  rw [get_eq_lookup, get_eq_lookup, put, SortedMap.lookup_insertInto]

/-- Every value is null, or an object of nulls. -/
def Nulls (m : Members) : Prop :=
  ∀ k v, m.get k = some v → v = .null ∨ ∃ inner : Members, v = .object inner ∧
    ∀ k' v', inner.get k' = some v' → v' = .null

/-- The object under a key. -/
def innerOf (m : Members) (key : String) : Members :=
  match m.get key with
  | some (.object inner) => inner
  | _ => []

lemma setPath_sub (m : Members) (attr sub : String) (v : Value) :
    setPath m attr (some sub) v =
      put m (keyFor m attr) (.object (putCi (innerOf m (keyFor m attr)) sub v)) := rfl

lemma innerOf_nulls (hm : Nulls m) (key k : String) (v : Value)
    (h : (innerOf m key).get k = some v) : v = .null := by
  rw [innerOf] at h
  split at h
  · rename_i inner hget
    rcases hm key _ hget with hnull | ⟨inner', hobject, hinner⟩
    · cases hnull
    · cases hobject
      exact hinner k v h
  · cases h

lemma nulls_setPath (hm : Nulls m) (attr : String) (sub : Option String) :
    Nulls (setPath m attr sub .null) := by
  intro k v hget
  cases sub with
  | none =>
      rw [setPath, get_put] at hget
      split_ifs at hget
      · exact .inl (Option.some.inj hget).symm
      · exact hm k v hget
  | some sub =>
      rw [setPath_sub, get_put] at hget
      split_ifs at hget
      · refine .inr ⟨_, (Option.some.inj hget).symm, fun k' v' hget' => ?_⟩
        rw [putCi, get_put] at hget'
        split_ifs at hget'
        · exact (Option.some.inj hget').symm
        · exact innerOf_nulls hm _ k' v' hget'
      · exact hm k v hget

lemma applyPlain_nulls (hm : Nulls m) (hop : op ≠ .remove) (attr : String)
    (sub : Option String) (v : Value) : applyPlain m op attr sub (some v) = setPath m attr sub v := by
  cases op with
  | remove => exact absurd rfl hop
  | replace => rfl
  | add =>
      rw [applyPlain.eq_def]
      dsimp only [Option.getD_some]
      split
      · rename_i hget
        rcases hm _ _ hget with h | ⟨_, h, -⟩
        · cases h
        · cases h
      · rename_i hget _
        rcases hm _ _ hget with h | ⟨_, h, -⟩
        · cases h
        · cases h
      · rfl

/-- A member of that name is there, in any case. -/
def Has (m : Members) (name : String) : Prop := ∃ k, eqIgnoreAsciiCase k name = true ∧ (m.get k).isSome

lemma has_put (h : Has m name) (key : String) (v : Value) :
    Has (put m key v) name := by
  obtain ⟨k, hk, hget⟩ := h
  refine ⟨k, hk, ?_⟩
  rw [get_put]
  split_ifs
  · rfl
  · exact hget

lemma has_setPath (h : Has m name) (attr : String) (sub : Option String)
    (v : Value) : Has (setPath m attr sub v) name := by
  cases sub with
  | none => exact has_put h _ _
  | some sub => exact has_put h _ _

lemma isSome_get_iff (m : Members) (k : String) : (m.get k).isSome = true ↔ k ∈ m.map (·.1) := by
  induction m with
  | nil => simp
  | cons e m ih =>
      obtain ⟨k', v⟩ := e
      rw [Members.get_cons, List.map_cons, List.mem_cons]
      split_ifs with h
      · exact iff_of_true rfl (.inl h.symm)
      · rw [ih]
        exact ⟨.inr, fun hk => hk.resolve_left fun heq => h heq.symm⟩

lemma get_keyFor (h : Has m name) : (m.get (keyFor m name)).isSome = true := by
  obtain ⟨k, hk, hget⟩ := h
  rw [isSome_get_iff] at hget ⊢
  rw [keyFor]
  cases hfind : (m.map (·.1)).find? fun k => eqIgnoreAsciiCase k name with
  | none => exact absurd hk (by simpa using List.find?_eq_none.mp hfind k hget)
  | some k' => exact List.mem_of_find?_eq_some hfind

lemma keyFor_ci (m : Members) (name : String) : eqIgnoreAsciiCase (keyFor m name) name = true := by
  rw [keyFor]
  cases hfind : (m.map (·.1)).find? fun k => eqIgnoreAsciiCase k name with
  | none => exact beq_self_eq_true _
  | some k' => exact (List.find?_some hfind :)

lemma length_of_ci (h : eqIgnoreAsciiCase a b = true) : a.toList.length = b.toList.length := by
  have hlower : toAsciiLowercase a = toAsciiLowercase b := eq_of_beq h
  have hlens := congrArg (fun s => s.toList.length) hlower
  simpa only [toList_toAsciiLowercase, List.length_map] using hlens

lemma length_of_keyFor (h : keyFor m a = keyFor m b) :
    a.toList.length = b.toList.length := by
  have ha := length_of_ci (keyFor_ci m a)
  rw [h] at ha
  exact ha.symm.trans (length_of_ci (keyFor_ci m b))

def pathLength (attr : String) (sub : Option String) : ℕ :=
  match sub with
  | some sub => attr.toList.length + 1 + sub.toList.length
  | none => attr.toList.length

lemma length_path (t : Target) : t.path.toList.length = pathLength t.attr t.sub := by
  obtain ⟨attr, f, sub⟩ := t
  cases sub with
  | none => rfl
  | some sub =>
      simp only [Target.path, pathLength, String.toList_append, List.length_append]
      rfl

/-- **A value that stands nowhere else shows where it was written**, by the length of the path. -/
lemma setPath_length (hm : Nulls m) {attr attr' : String} {sub sub' : Option String}
    (h : setPath m attr sub (.bool true) = setPath m attr' sub' (.bool true)) :
    pathLength attr sub = pathLength attr' sub' := by
  have htrue : ∀ k, m.get k ≠ some (.bool true) := by
    intro k hget
    rcases hm k _ hget with hnull | ⟨_, hobject, -⟩
    · cases hnull
    · cases hobject
  have hinner : ∀ k key sub, m.get k ≠ some (.object (putCi (innerOf m key) sub (.bool true))) := by
    intro k key sub hget
    rcases hm k _ hget with hnull | ⟨inner, hobject, hnulls⟩
    · cases hnull
    · cases hobject
      have hval := hnulls (keyFor (innerOf m key) sub) (.bool true) (by rw [putCi, get_put, if_pos rfl])
      cases hval
  have hget := congrArg (fun d : Members => d.get (keyFor m attr)) h
  have hget' := congrArg (fun d : Members => d.get (keyFor m attr')) h
  cases sub with
  | none =>
      cases sub' with
      | none =>
          simp only [setPath, get_put, if_true] at hget
          split_ifs at hget with hkey
          · exact length_of_keyFor hkey
          · exact absurd hget.symm (htrue _)
      | some sub' =>
          simp only [setPath, get_put, if_true] at hget
          split_ifs at hget with hkey
          · cases hget
          · exact absurd hget.symm (htrue _)
  | some sub =>
      cases sub' with
      | none =>
          simp only [setPath, get_put, if_true] at hget'
          split_ifs at hget' with hkey
          · cases hget'
          · exact absurd hget' (htrue _)
      | some sub' =>
          simp only [setPath_sub, get_put, if_true] at hget
          split_ifs at hget with hkey
          · simp only [Option.some.injEq, Value.object.injEq] at hget
            have hsub := congrArg (fun d : Members => d.get (keyFor (innerOf m (keyFor m attr)) sub)) hget
            simp only [putCi, get_put, if_true] at hsub
            split_ifs at hsub with hkey'
            · rw [← hkey] at hkey'
              rw [pathLength, pathLength, length_of_keyFor hkey, length_of_keyFor hkey']
            · cases innerOf_nulls hm _ _ _ hsub.symm
          · exact absurd hget.symm (hinner _ _ _)

/-! ## Names that are not plain -/

lemma parsePath_unbracketed (h : '[' ∉ (stripSchema p).toList) :
    ∃ t, parsePath P p = .ok t ∧ t.filter = none ∧ t.path = stripSchema p := by
  have hplain : ∃ t, parsePath P p = .ok t ∧ t.filter = none := by
    rw [parsePath]
    dsimp only
    rw [if_neg h]
    cases splitOnce (stripSchema p) '.' with
    | none => exact ⟨_, rfl, rfl⟩
    | some q => exact ⟨_, rfl, rfl⟩
  obtain ⟨t, ht, hfilter⟩ := hplain
  exact ⟨t, ht, hfilter, path_of_plain ht hfilter⟩

lemma parsePath_unnested (h : Unnested p.toList) :
    (∃ t, parsePath P p = .ok t ∧ t.filter = none ∧ t.path = stripSchema p) ∨
      parsePath P p = refuse "invalidPath" "missing ]" ∨ parsePath P p = .error .panicked := by
  obtain ⟨a, b, hab, ha, hb⟩ := h.suffix (stripSchema_suffix p)
  by_cases hopen : '[' ∈ (stripSchema p).toList
  · by_cases hclose : ']' ∈ (stripSchema p).toList
    · refine .inr (.inr ((parsePath_panics_iff P p).mpr ?_))
      rw [crosses, decide_eq_true hopen, decide_eq_true hclose, Bool.true_and, Bool.true_and, decide_eq_true_eq, hab,
        List.dropWhile_append_of_pos]
      · exact fun h => hb ((List.dropWhile_suffix _).subset h)
      · intro c hc
        exact bne_iff_ne.mpr fun h => ha (h ▸ hc)
    · refine .inr (.inl ?_)
      rw [parsePath]
      dsimp only
      rw [if_pos hopen, rfind, if_neg hclose]
  · exact .inl (parsePath_unbracketed hopen)

lemma exists_not_plain : ∀ ks : List String, ¬ PlainKeys P ks → ∃ done k rest t, ks = done ++ k :: rest ∧
    (∀ k' ∈ done, ∃ t', parsePath P k' = .ok t' ∧ t'.filter = none ∧ stripSchema t'.path = t'.path) ∧
      parsePath P k = .ok t ∧ ¬ (t.filter = none ∧ stripSchema t.path = t.path) := by
  intro ks
  induction ks with
  | nil => exact fun h => absurd trivial h
  | cons k ks ih =>
      intro h
      rw [PlainKeys] at h
      cases ht : parsePath P k with
      | error e =>
          rw [ht] at h
          exact absurd trivial h
      | ok t =>
          rw [ht] at h
          by_cases hk : t.filter = none ∧ stripSchema t.path = t.path
          · obtain ⟨done, k', rest, t', rfl, hdone, ht', hbad⟩ := ih fun hks => h ⟨hk, hks⟩
            refine ⟨k :: done, k', rest, t', rfl, ?_, ht', hbad⟩
            intro j hj
            rcases List.mem_cons.mp hj with rfl | hj
            · exact ⟨t, ht, hk⟩
            · exact hdone j hj
          · exact ⟨[], k, ks, t, rfl, fun _ h => absurd h List.not_mem_nil, ht, hk⟩

lemma each_nulls (hop : op ≠ .remove) : ∀ (done : List String) (m : Members),
    (∀ k' ∈ done, ∃ t', parsePath P k' = .ok t' ∧ t'.filter = none ∧ stripSchema t'.path = t'.path) →
      Nulls m → ∃ m', applyEach P op m (done.map fun k => (k, .null)) = .ok m' ∧
        (done.map fun k => (k, Value.null)).foldlM (applyMember P op) m = .ok m' ∧ Nulls m' ∧
          ∀ name, Has m name → Has m' name := by
  intro done
  induction done with
  | nil => exact fun m _ hm => ⟨m, rfl, rfl, hm, fun _ h => h⟩
  | cons k done ih =>
      intro m hdone hm
      obtain ⟨t, ht, hfilter, hstrip⟩ := hdone k List.mem_cons_self
      have hset := applyPlain_nulls hm hop t.attr t.sub .null
      obtain ⟨m', heach, hmembers, hm', hhas⟩ := ih (setPath m t.attr t.sub .null)
        (fun k' hk' => hdone k' (List.mem_cons_of_mem _ hk')) (nulls_setPath hm _ _)
      refine ⟨m', ?_, ?_, hm', fun name h => hhas name (has_setPath h _ _ _)⟩
      · rw [List.map_cons, applyEach, List.foldlM_cons, applyAt_plain ht hfilter, hset]
        exact heach
      · rw [List.map_cons, List.foldlM_cons, applyMember_plain ht hfilter hstrip, hset]
        exact hmembers

/-- A name with a filter: where its attribute is no list, the filter is refused with a path, and without
one never. -/
lemma filter_differs (op : PatchKind) {f : Filter}
    (ht : parsePath P k = .ok t) (hf : t.filter = some f) (hm : Nulls m) (hhas : Has m t.attr) :
    applyAt P m op k (some .null) = refuse "invalidPath" "filtered path on a single-valued attribute" ∧
      applyMember P op m (k, .null) ≠
        refuse "invalidPath" "filtered path on a single-valued attribute" := by
  obtain ⟨v, hv⟩ := Option.isSome_iff_exists.mp (get_keyFor hhas)
  constructor
  · rw [applyAt, ht]
    dsimp only [bind, Except.bind]
    rw [hf]
    dsimp only
    rw [hv]
    rcases hm _ _ hv with rfl | ⟨inner, rfl, -⟩
    · rfl
    · rfl
  · have hunnested : Unnested t.path.toList := by
      rcases parsePath_cases ht with ⟨hnone, -, -⟩ | ⟨-, h⟩
      · rw [hf] at hnone
        cases hnone
      · exact h
    rw [applyMember, ht]
    show applyAt P m op t.path (some .null) ≠ _
    rcases parsePath_unnested hunnested with ⟨t', ht', hfilter', -⟩ | hmissing | hpanics
    · rw [applyAt_plain ht' hfilter']
      exact fun h => by cases h
    · rw [applyAt, hmissing]
      intro h
      have htext : "missing ]" = "filtered path on a single-valued attribute" :=
        congrArg ScimError.detail (Halt.refused.inj (Except.error.inj h))
      revert htext
      decide
    · rw [applyAt, hpanics]
      exact fun h => by cases Except.error.inj h

lemma schema_differs (hop : op ≠ .remove) (ht : parsePath P k = .ok t)
    (hfilter : t.filter = none) (hstrip : stripSchema t.path ≠ t.path) (hm : Nulls m) :
    applyMember P op m (k, .bool true) ≠ applyAt P m op k (some (.bool true)) := by
  have hopen : '[' ∉ t.path.toList := by
    rcases parsePath_cases ht with ⟨-, -, h⟩ | ⟨⟨f, hf⟩, -⟩
    · exact h
    · rw [hfilter] at hf
      cases hf
  obtain ⟨t', ht', hfilter', hpath'⟩ := parsePath_unbracketed (P := P) (p := t.path)
    fun h => hopen ((stripSchema_suffix _).subset h)
  rw [applyMember, ht, applyAt_plain ht hfilter, applyPlain_nulls hm hop]
  show applyAt P m op t.path (some (.bool true)) ≠ _
  rw [applyAt_plain ht' hfilter', applyPlain_nulls hm hop]
  intro h
  have hlength := setPath_length hm (Except.ok.inj h)
  rw [← length_path, ← length_path, hpath'] at hlength
  rcases stripSchema_cases t.path with hsame | ⟨-, hlt⟩
  · exact hstrip hsame
  · omega

lemma PlainKeys.take : ∀ {ks ks' : List String}, PlainKeys P ks → ks' <+: ks → PlainKeys P ks' := by
  intro ks
  induction ks with
  | nil =>
      intro ks' _ hks
      rw [List.prefix_nil.mp hks]
      trivial
  | cons k ks ih =>
      intro ks' hplain hks
      cases ks' with
      | nil => trivial
      | cons k' ks' =>
          obtain ⟨rfl, htail⟩ := List.cons_prefix_cons.mp hks
          rw [PlainKeys] at hplain ⊢
          cases ht : parsePath P k' with
          | error e => trivial
          | ok t =>
              rw [ht] at hplain
              exact ⟨hplain.1, ih hplain.2 htail⟩

lemma nulls_sample (name : String) : Nulls [] ∧ Nulls [(name, .null)] ∧ Has [(name, .null)] name := by
  refine ⟨fun k v h => (by cases h), fun k v h => ?_, name, beq_self_eq_true _, ?_⟩
  · rw [Members.get_cons] at h
    split_ifs at h
    · exact .inl (Option.some.inj h).symm
    · cases h
  · rw [Members.get_cons, if_pos rfl]
    rfl

lemma plain_of_same (hop : op ≠ .remove) {ks : List String}
    (h : ∀ ms : Members, ms.map (·.1) <+: ks → ∀ m, ms.foldlM (applyMember P op) m = applyEach P op m ms) :
    PlainKeys P ks := by
  by_contra hnot
  obtain ⟨done, k, rest, t, rfl, hdone, ht, hbad⟩ := exists_not_plain ks hnot
  -- after the names before it, the first that is not plain does the same
  have hstep : ∀ (v : Value) (m : Members), Nulls m → ∃ m', Nulls m' ∧ (∀ name, Has m name → Has m' name) ∧
      applyMember P op m' (k, v) = applyAt P m' op k (some v) := by
    intro v m hm
    obtain ⟨m', heach, hmembers, hm', hhas⟩ := each_nulls hop done m hdone hm
    have hsame := h ((done.map fun k => (k, Value.null)) ++ [(k, v)]) ⟨rest, by simp [Function.comp_def]⟩ m
    rw [applyEach, List.foldlM_append, List.foldlM_append, hmembers] at hsame
    rw [applyEach] at heach
    rw [heach] at hsame
    have hone : ∀ r r' : Run Members, (r >>= pure) = (r' >>= pure) → r = r' := by
      intro r r' heq
      simpa using heq
    exact ⟨m', hm', hhas, hone _ _ hsame⟩
  obtain ⟨hempty, hnull, hhas⟩ := nulls_sample t.attr
  cases hf : t.filter with
  | some f =>
      obtain ⟨m', hm', hhas', hsame⟩ := hstep .null _ hnull
      obtain ⟨hdirect, hmember⟩ := filter_differs op ht hf hm' (hhas' _ hhas)
      exact hmember (hsame.trans hdirect)
  | none =>
      obtain ⟨m', hm', -, hsame⟩ := hstep (.bool true) _ hempty
      exact schema_differs hop ht hf (fun hstrip => hbad ⟨hf, hstrip⟩) hm' hsame

/-- **When an operation without a path is the sequence of its members.**  On a document that is an object, a
list of names does the same with and without a path, for all values and after every member, exactly if up to
the first name that is refused none has a filter or is behind a schema twice.  On another document both are
refused, but for a value without members. -/
theorem pathless_iff (P : Platform) {op : PatchKind} (hop : op ≠ .remove) :
    (∀ ks : List String, (∀ ms : Members, ms.map (·.1) <+: ks → ∀ m : Members,
        applyOp P (.object m) (withoutPath op ms) = applyPatch P (.object m) (withPaths op ms)) ↔
      PlainKeys P ks) ∧
    ∀ doc : Value, (∀ m, doc ≠ .object m) → ∀ ms : Members,
      (applyOp P doc (withoutPath op ms) = applyPatch P doc (withPaths op ms) ↔ ms ≠ []) := by
  constructor
  · intro ks
    simp only [same_iff]
    exact ⟨plain_of_same hop, fun hplain ms hms m => foldlM_plain ms m (hplain.take hms)⟩
  · intro doc hdoc ms
    have hrefused : ∀ o : PatchOp, applyOp P doc o = refuse "invalidValue" "resource is not an object" := by
      intro o
      cases doc with
      | object m => exact absurd rfl (hdoc m)
      | _ => rfl
    rw [hrefused]
    cases ms with
    | nil => exact iff_of_false (fun h => by cases h) fun h => h rfl
    | cons e ms =>
        refine iff_of_true ?_ (List.cons_ne_nil _ _)
        show _ = (applyOp P doc ⟨op, some e.1, some e.2⟩ >>= fun doc => applyPatch P doc (withPaths op ms))
        rw [hrefused]
        rfl

/-- A user's name and family name, replaced without a path. -/
theorem pathless_names :
    applyOp samplePlatform (.object [("userName", .string "ann")])
        (withoutPath .replace [("name.familyName", .string "Berg"), ("userName", .string "anna")]) =
      applyPatch samplePlatform (.object [("userName", .string "ann")])
        (withPaths .replace [("name.familyName", .string "Berg"), ("userName", .string "anna")]) := by
  refine ((pathless_iff samplePlatform (by decide)).1 ["name.familyName", "userName"]).mpr ?_ _
    List.prefix_rfl _
  exact ⟨⟨rfl, by decide⟩, ⟨rfl, by decide⟩, trivial⟩

def workEmail : Members :=
  [("emails", .array [.object [("type", .string "work"), ("value", .string "a@example.com")]])]

def newWorkEmail : Members := [("emails[type eq \"work\"].value", .string "b@example.com")]

/-- **The filter is dropped.**  Without a path, a new work address replaces the list of addresses by an
object. -/
theorem filter_dropped :
    applyOp samplePlatform (.object workEmail) (withoutPath .replace newWorkEmail) =
      .ok (.object [("emails", .object [("value", .string "b@example.com")])]) ∧
    applyPatch samplePlatform (.object workEmail) (withPaths .replace newWorkEmail) =
      .ok (.object [("emails", .array [.object [("type", .string "work"), ("value", .string "b@example.com")]])]) ∧
    applyOp samplePlatform (.object workEmail) (withoutPath .replace newWorkEmail) ≠
      applyPatch samplePlatform (.object workEmail) (withPaths .replace newWorkEmail) := by
  exact ⟨by decide +kernel, by decide +kernel, by decide +kernel⟩

end Ridm.Scim
