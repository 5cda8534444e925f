import Mathlib.Data.List.Nodup
import Ridm.Scim.Users

/-!
# Index lookups and the scan

`list_users` answers a filter with an equality on `userName`, `externalId`, `emails` or `id` by
looking one row up and checking the filter on it, instead of scanning the tenant.  The lookup and
the filter do not compare alike: names are looked up in both columns with `LIMIT 1`, and an
external id exactly, where a filter ignores case.

`index_agrees_iff` says exactly for which users and filters the two branches answer the same.
-/

namespace Ridm.Scim

open Users (User)

/-! ## Paths without case -/

lemma splitOn_toLower (l : List Char) :
    (l.splitOn '.').map (List.map Char.toLower) = (l.map Char.toLower).splitOn '.' := by
  have hdot : ∀ c : Char, (c.toLower == '.') = (c == '.') := by
    intro c
    refine toLower_cases (p := fun c => (c.toLower == '.') = (c == '.')) ?_ (by decide) c
    intro c hc
    rw [hc]
  simp only [List.splitOn]
  induction l with
  | nil => rfl
  | cons c l ih =>
      rw [List.map_cons, List.splitOnP_cons_eq_if_modifyHead, List.splitOnP_cons_eq_if_modifyHead,
        hdot, ← ih]
      split_ifs
      · rfl
      · cases l.splitOnP (· == '.') with
        | nil => rfl
        | cons part parts => rfl

lemma split_toAsciiLowercase (path : String) :
    (split path '.').map toAsciiLowercase = split (toAsciiLowercase path) '.' := by
  rw [split, split, toList_toAsciiLowercase, ← splitOn_toLower, List.map_map, List.map_map]
  refine List.map_congr_left fun part _ => ?_
  show toAsciiLowercase (String.ofList part) = String.ofList (part.map Char.toLower)
  rw [toAsciiLowercase, String.toList_ofList]

lemma ciKey_of_short {k : String} (hk : k.toList.length < 42) : ciKey k = toAsciiLowercase k := by
  have hnone : ∀ schema : String, 42 ≤ schema.toList.length → stripPrefix k schema = none := by
    intro schema hlen
    rw [stripPrefix, if_neg]
    intro hpre
    have := (List.isPrefixOf_iff_prefix.mp hpre).length_le
    omega
  rw [ciKey, stripSchema, hnone userSchema (by decide), hnone groupSchema (by decide)]

lemma foldl_selectStep {ps qs : List String} (h : ps.map ciKey = qs.map ciKey) :
    ∀ current : List Value, ps.foldl (fun c part => c.flatMap (selectStep part)) current =
      qs.foldl (fun c part => c.flatMap (selectStep part)) current := by
  induction ps generalizing qs with
  | nil =>
      intro current
      rw [List.map_nil, eq_comm, List.map_eq_nil_iff] at h
      rw [h]
  | cons p ps ih =>
      intro current
      cases qs with
      | nil => cases h
      | cons q qs =>
          rw [List.map_cons, List.map_cons, List.cons.injEq] at h
          have hstep : selectStep p = selectStep q := by
            have hget : (fun v => getCi v p) = fun v => getCi v q := funext fun v => getCi_congr v h.1
            funext v
            cases v with
            | array items => exact congrArg (fun g => items.filterMap g) hget
            | object m => exact congrArg Option.toList (getCi_congr (.object m) h.1)
            | _ => rfl
          rw [List.foldl_cons, List.foldl_cons, hstep]
          exact ih h.2 _

lemma select_of_lower (doc : Value) {path lit : String} (h : toAsciiLowercase path = toAsciiLowercase lit)
    (hshort : ∀ k ∈ split (toAsciiLowercase lit) '.', k.toList.length < 42) :
    select doc path = select doc lit := by
  have hparts : ∀ p : String, toAsciiLowercase p = toAsciiLowercase lit →
      (split p '.').map ciKey = split (toAsciiLowercase lit) '.' := by
    intro p hp
    rw [← hp, ← split_toAsciiLowercase]
    refine List.map_congr_left fun k hk => ciKey_of_short ?_
    have hmem : toAsciiLowercase k ∈ split (toAsciiLowercase lit) '.' := by
      rw [← hp, ← split_toAsciiLowercase]
      exact List.mem_map_of_mem hk
    have hlen := hshort _ hmem
    rwa [toList_toAsciiLowercase, List.length_map] at hlen
  rw [select, select, foldl_selectStep ((hparts path h).trans (hparts lit rfl).symm)]

section Selecting

variable (S : Service) (base : String) (u : User) (memberOf : List Group)

lemma select_word {key : String} (hsplit : split key '.' = [key]) :
    select (userToScim S base u memberOf) key =
      (getCi (userToScim S base u memberOf) key).toList.flatMap selectLeaves := by
  rw [select, hsplit, List.foldl_cons, List.foldl_nil, List.flatMap_singleton]
  rfl

lemma select_userName : select (userToScim S base u memberOf) "userName" = [.string u.username] := by
  rw [select_word S base u memberOf (by decide), getCi_userName]
  rfl

lemma select_id : select (userToScim S base u memberOf) "id" = [.string (uuidText u.id)] := by
  rw [select_word S base u memberOf (by decide), getCi_id]
  rfl

lemma select_externalId : select (userToScim S base u memberOf) "externalId" =
    u.externalId.toList.map .string := by
  rw [select_word S base u memberOf (by decide), getCi_externalId]
  cases u.externalId <;> rfl

lemma getCi_emailValue (e : String) : getCi (.object [("value", .string e), ("type", .string "work"),
    ("primary", .bool true)]) "value" = some (.string e) := by
  rw [getCi, findCi_cons, if_pos rfl]

lemma select_emails : select (userToScim S base u memberOf) "emails" =
    u.email.toList.map .string := by
  rw [select_word S base u memberOf (by decide), getCi_emails]
  cases u.email with
  | none => rfl
  | some e => simp [emailsOf, selectLeaves, getCi_emailValue]

lemma select_emails_value : select (userToScim S base u memberOf) "emails.value" =
    u.email.toList.map .string := by
  have hsplit : split "emails.value" '.' = ["emails", "value"] := by decide
  rw [select, hsplit, List.foldl_cons, List.foldl_cons, List.foldl_nil, List.flatMap_singleton]
  show (((getCi (userToScim S base u memberOf) "emails").toList).flatMap _).flatMap _ = _
  rw [getCi_emails]
  cases u.email with
  | none => rfl
  | some e => simp [emailsOf, selectStep, selectLeaves, getCi_emailValue]

end Selecting

/-! ## What a lookup stands for -/

/-- What the equality behind a lookup says of a user. -/
def Lookup.Holds (S : Service) (u : User) : Lookup → Prop
  | .username v => S.toLowercase u.username = S.toLowercase v
  | .email v => ∃ e ∈ u.email, S.toLowercase e = S.toLowercase v
  | .externalId v => ∃ x ∈ u.externalId, S.toLowercase x = S.toLowercase v
  | .id i => ∃ v, Uuid128.parseStr v = some i ∧ S.toLowercase (uuidText u.id) = S.toLowercase v

lemma cmp_eq_matches {S : Service} {doc : Value} {path v : String} {found : List String}
    (hselect : select doc path = found.map .string)
    (h : (Filter.cmp path .eq (.string v)).matches S.forFilters doc = true) :
    ∃ x ∈ found, S.toLowercase x = S.toLowercase v := by
  rw [Filter.matches, hselect] at h
  simp only [reduceCtorEq, if_false, List.any_map, List.any_eq_true, Function.comp_apply, compare,
    compareText, beq_iff_eq] at h
  exact h

variable {u : User}

/-- What the filter finds, the index finds. -/
lemma holds_of_matches {S : Service} {base : String} {memberOf : List Group} {f : Filter} :
    ∀ {lookup : Lookup}, indexed f = some lookup →
      f.matches S.forFilters (userToScim S base u memberOf) = true → lookup.Holds S u := by
  have hleaf : ∀ {path v : String} {lookup : Lookup},
      lookupOf (.cmp path .eq (.string v)) = some lookup →
      (Filter.cmp path .eq (.string v)).matches S.forFilters (userToScim S base u memberOf) = true →
      lookup.Holds S u := by
    intro path v lookup hlookup h
    have hpath : ∀ lit : String, toAsciiLowercase path = toAsciiLowercase lit →
        (∀ k ∈ split (toAsciiLowercase lit) '.', k.toList.length < 42) →
        select (userToScim S base u memberOf) path = select (userToScim S base u memberOf) lit :=
      fun lit hlit hshort => select_of_lower _ hlit hshort
    rw [lookupOf] at hlookup
    split at hlookup
    · rename_i hlower
      cases hlookup
      have hs : select (userToScim S base u memberOf) path = [u.username].map .string :=
        (hpath "userName" (hlower.trans (by decide)) (by decide)).trans
          (select_userName S base u memberOf)
      obtain ⟨x, hx, hv⟩ := cmp_eq_matches hs h
      rw [List.mem_singleton.mp hx] at hv
      exact hv
    · rename_i hlower
      cases hlookup
      have hs := (hpath "externalId" (hlower.trans (by decide)) (by decide)).trans
        (select_externalId S base u memberOf)
      obtain ⟨x, hx, hv⟩ := cmp_eq_matches hs h
      exact ⟨x, Option.mem_toList.mp hx, hv⟩
    · rename_i hlower
      cases hlookup
      have hs := (hpath "emails" (hlower.trans (by decide)) (by decide)).trans
        (select_emails S base u memberOf)
      obtain ⟨x, hx, hv⟩ := cmp_eq_matches hs h
      exact ⟨x, Option.mem_toList.mp hx, hv⟩
    · rename_i hlower
      cases hlookup
      have hs := (hpath "emails.value" (hlower.trans (by decide)) (by decide)).trans
        (select_emails_value S base u memberOf)
      obtain ⟨x, hx, hv⟩ := cmp_eq_matches hs h
      exact ⟨x, Option.mem_toList.mp hx, hv⟩
    · rename_i hlower
      obtain ⟨id, hid, rfl⟩ := Option.map_eq_some_iff.mp hlookup
      have hs : select (userToScim S base u memberOf) path = [uuidText u.id].map .string :=
        (hpath "id" (hlower.trans (by decide)) (by decide)).trans (select_id S base u memberOf)
      obtain ⟨x, hx, hv⟩ := cmp_eq_matches hs h
      rw [List.mem_singleton.mp hx] at hv
      exact ⟨v, hid, hv⟩
    · cases hlookup
  induction f with
  | cmp path op value =>
      intro lookup hindexed h
      have hlookup : lookupOf (.cmp path op value) = some lookup := hindexed
      cases op with
      | eq =>
          cases value with
          | string v => exact hleaf hlookup h
          | _ => cases hlookup
      | _ => cases hlookup
  | present path =>
      intro lookup hindexed _
      cases hindexed
  | and a b iha ihb =>
      intro lookup hindexed h
      rw [Filter.matches, Bool.and_eq_true] at h
      rw [indexed, Option.or_eq_some_iff] at hindexed
      rcases hindexed with ha | ⟨-, hb⟩
      · exact iha ha h.1
      · exact ihb hb h.2
  | or a b _ _ =>
      intro lookup hindexed _
      cases hindexed
  | not a _ =>
      intro lookup hindexed _
      cases hindexed

/-! ## The users of a tenant -/

/-- The users a tenant can have: with ids of their own, kept apart by the unique indexes, and with
usernames and emails as the services normalise them. -/
structure Population (S : Service) where
  rows : Users.Table
  ids : (rows.map User.id).Nodup
  indexes : ∀ r ∈ rows, ∀ s ∈ rows, r.id ≠ s.id → Users.clashes r s = false
  usernames : ∀ u ∈ rows, ∃ raw, Users.normalizeUsername S.forUsers raw = .ok u.username
  emails : ∀ u ∈ rows, ∀ e ∈ u.email, ∃ raw, Users.normalizeEmail S.forUsers raw = .ok e

/-- A query with `LIMIT 1` returns one of the rows, if there is one. -/
def Picks (limitOne : List User → Option User) : Prop :=
  ∀ l, (limitOne l = none → l = []) ∧ ∀ u ∈ limitOne l, u ∈ l

lemma picks_head : Picks List.head? := by
  intro l
  exact ⟨List.head?_eq_none_iff.mp, fun u hu => List.mem_of_mem_head? hu⟩

lemma identifier_of_lower {lower : String → String} (hlower : LowerLaws lower) {raw v : String}
    (h : lower (lower (trim raw)) = lower v) : lower (trim raw) = lower (trim v) := by
  rw [hlower.idem] at h
  rw [hlower.trim v, ← h, hlower.trim_lower]

variable {P : Users.Platform} {raw x : String} {v : String} {r s : User}

lemma normalizeUsername_eq
    (h : Users.normalizeUsername P raw = .ok x) : x = P.toLowercase (trim raw) := by
  rw [Users.normalizeUsername] at h
  split_ifs at h
  cases h
  rfl

lemma normalizeEmail_eq
    (h : Users.normalizeEmail P raw = .ok x) : x = P.toLowercase (trim raw) := by
  rw [Users.normalizeEmail] at h
  split_ifs at h
  cases h
  rfl

namespace Population

variable {S : Service} (pop : Population S)

lemma eq_of_id (hr : r ∈ pop.rows) (hs : s ∈ pop.rows) (h : r.id = s.id) : r = s :=
  List.inj_on_of_nodup_map pop.ids hr hs h

lemma nodup : pop.rows.Nodup := List.Nodup.of_map _ pop.ids

lemma findById_eq (hu : u ∈ pop.rows) : Users.findById pop.rows u.id = some u := by
  rw [Users.findById]
  cases hf : pop.rows.find? fun r => r.id == u.id with
  | none =>
      have := List.find?_eq_none.mp hf u hu
      simp at this
  | some w =>
      have hw := List.find?_some hf
      rw [beq_iff_eq] at hw
      rw [pop.eq_of_id (List.mem_of_find?_eq_some hf) hu hw]

lemma get_eq (hu : u ∈ pop.rows) (hlive : u.live = true) :
    Users.get pop.rows u.id = .ok u := by
  rw [Users.get, pop.findById_eq hu, Option.filter_some, if_pos hlive]

lemma eq_of_externalId (hr : r ∈ pop.rows) (hs : s ∈ pop.rows) (hrl : r.live = true)
    (hsl : s.live = true) {x : String} (hrx : r.externalId = some x) (hsx : s.externalId = some x) :
    r = s := by
  by_contra hne
  have hid : r.id ≠ s.id := fun h => hne (pop.eq_of_id hr hs h)
  have hclash := pop.indexes r hr s hs hid
  simp [Users.clashes, hrl, hsl, Users.sameKey, hrx, hsx] at hclash

lemma answersTo (hlower : LowerLaws S.toLowercase) (hu : u ∈ pop.rows) (hlive : u.live = true)
    (h : Lookup.Holds S u (.username v) ∨ Lookup.Holds S u (.email v)) :
    u.answersTo (S.toLowercase (trim v)) = true := by
  simp only [Users.User.answersTo, hlive, Bool.true_and, Bool.or_eq_true, beq_iff_eq]
  rcases h with h | ⟨e, he, h⟩
  · obtain ⟨raw, hraw⟩ := pop.usernames u hu
    have hname := normalizeUsername_eq hraw
    have h' : S.toLowercase u.username = S.toLowercase v := h
    rw [hname] at h'
    exact .inl (hname.trans (identifier_of_lower hlower h'))
  · obtain ⟨raw, hraw⟩ := pop.emails u hu e he
    have hname := normalizeEmail_eq hraw
    rw [hname] at h
    refine .inr ?_
    rw [he, hname]
    exact congrArg some (identifier_of_lower hlower h)

lemma id_eq (hlower : LowerLaws S.toLowercase) {i : Uuid128}
    (h : Lookup.Holds S u (.id i)) : u.id = i := by
  obtain ⟨v, hv, hsame⟩ := h
  have hascii : ∀ c ∈ (uuidText u.id).toList, c.toNat < 128 := by
    intro c hc
    rw [uuidText, String.toList_ofList] at hc
    have := isUuidChar_toNat (Uuid128.isUuidChar_text u.id c hc)
    omega
  rw [hlower.ascii _ hascii, hlower.ascii v (Uuid128.parseStr_ascii hv), ← String.toList_inj,
    toList_toAsciiLowercase, toList_toAsciiLowercase, uuidText, String.toList_ofList] at hsame
  have hplain : ∀ c : Char, isUuidChar c = true → c.toLower = c := by
    refine toLower_cases ?_ (by decide)
    intro c hc _
    exact hc
  have htext : u.id.text.map Char.toLower = u.id.text := by
    rw [List.map_congr_left (g := fun c => c) fun c hc => hplain c (Uuid128.isUuidChar_text u.id c hc)]
    exact List.map_id' _
  rw [htext] at hsame
  exact (Uuid128.parseStr_of_lower hv hsame.symm).symm

end Population

/-! ## The two branches -/

/-- The tenant with these users, and a database that picks rows in this way. -/
def Population.world {S : Service} (pop : Population S) (memberOf : Uuid128 → List Group) (total : ℤ)
    (limitOne : List User → Option User) : World := ⟨pop.rows, memberOf, limitOne, total⟩

/-- The live users whose document satisfies the filter, in the order of the scan. -/
def matchingRows (S : Service) (W : World) (base : String) (f : Filter) : List User :=
  (((W.rows.filter User.live).mergeSort createdBefore)).filter fun u =>
    f.matches S.forFilters (withGroups S W base u)

/-- The row the index branch answers with, before it is checked. -/
def foundRow (S : Service) (W : World) (lookup : Lookup) : Option User :=
  (lookupRow S W lookup).filter User.live

section Branches

variable {S : Service} {W : World} {base : String} {q : PageQuery} {f : Filter} {lookup : Lookup}

lemma mem_matchingRows : u ∈ matchingRows S W base f ↔
    u ∈ W.rows ∧ u.live = true ∧ f.matches S.forFilters (withGroups S W base u) = true := by
  rw [matchingRows, List.mem_filter, List.mem_mergeSort, List.mem_filter, and_assoc]

lemma listByScan_eq (hcount : (W.rows.filter User.live).length ≤ scanLimit) :
    listByScan S W base q f =
      .ok (pageOf ((matchingRows S W base f).map (withGroups S W base))
        (matchingRows S W base f).length q) := by
  have hwindow : usersWindow W 0 (scanLimit + 1) =
      (W.rows.filter User.live).mergeSort createdBefore := by
    rw [usersWindow, List.drop_zero, List.take_of_length_le]
    rw [List.length_mergeSort]
    omega
  have hdocs : (((W.rows.filter User.live).mergeSort createdBefore).map (withGroups S W base)).filter
      (f.matches S.forFilters) = (matchingRows S W base f).map (withGroups S W base) := by
    rw [List.filter_map]
    rfl
  rw [listByScan, hwindow, if_neg (by rw [List.length_mergeSort]; omega), hdocs]
  dsimp only
  rw [List.length_map]

/-- The row of the index branch, once checked. -/
def checkedRow (S : Service) (W : World) (base : String) (f : Filter) (lookup : Lookup) : List User :=
  (foundRow S W lookup).toList.filter fun u => f.matches S.forFilters (withGroups S W base u)

lemma listByIndex_eq : listByIndex S W base q f lookup =
    pageOf ((checkedRow S W base f lookup).map (withGroups S W base))
      (checkedRow S W base f lookup).length q := by
  have hdocs : ((foundRow S W lookup).toList.map (withGroups S W base)).filter
      (f.matches S.forFilters) = (checkedRow S W base f lookup).map (withGroups S W base) := by
    rw [List.filter_map]
    rfl
  rw [listByIndex, ← foundRow, hdocs, List.length_map]

/-- **When the branches agree.**  The index branch answers what the scan does exactly when the row
it looks up is that of every user who satisfies the filter. -/
lemma branches_agree_iff (hnodup : W.rows.Nodup)
    (hcount : (W.rows.filter User.live).length ≤ scanLimit)
    (hfound : ∀ u ∈ foundRow S W lookup, u ∈ W.rows) :
    (.ok (listByIndex S W base q f lookup) = listByScan S W base q f) ↔
      ∀ u ∈ matchingRows S W base f, foundRow S W lookup = some u := by
  have hmatching : (matchingRows S W base f).Nodup :=
    (((List.mergeSort_perm _ _).nodup_iff).mpr (hnodup.filter _)).filter _
  have hchecked : ∀ u, u ∈ checkedRow S W base f lookup ↔
      foundRow S W lookup = some u ∧ u ∈ matchingRows S W base f := by
    intro u
    rw [checkedRow, List.mem_filter, Option.mem_toList, mem_matchingRows]
    constructor
    · rintro ⟨hu, hm⟩
      exact ⟨hu, hfound u hu, (Option.filter_eq_some_iff.mp hu).2, hm⟩
    · rintro ⟨hu, -, -, hm⟩
      exact ⟨hu, hm⟩
  have hlen : (checkedRow S W base f lookup).length ≤ 1 := by
    refine (List.length_filter_le _ _).trans ?_
    cases foundRow S W lookup <;> simp
  rw [listByScan_eq hcount, listByIndex_eq]
  constructor
  · intro hsame u hu
    have htotal : (checkedRow S W base f lookup).length = (matchingRows S W base f).length := by
      have := congrArg ListResponse.totalResults (Except.ok.inj hsame)
      simpa [pageOf, listed] using this
    -- nobody else satisfies the filter, so the checked row is this user's
    cases hm : matchingRows S W base f with
    | nil =>
        rw [hm] at hu
        cases hu
    | cons r rest =>
        rw [hm, List.length_cons] at htotal
        have hrest : rest = [] := List.eq_nil_of_length_eq_zero (by omega)
        rw [hm, hrest, List.mem_singleton] at hu
        obtain ⟨w, hw⟩ := List.exists_mem_of_length_pos
          (l := checkedRow S W base f lookup) (by omega)
        obtain ⟨hfw, hwm⟩ := (hchecked w).mp hw
        rw [hm, hrest, List.mem_singleton] at hwm
        rw [hfw, hwm, hu]
  · intro hall
    have hsame : checkedRow S W base f lookup = matchingRows S W base f := by
      cases hm : matchingRows S W base f with
      | nil =>
          rw [List.eq_nil_iff_forall_not_mem]
          intro w hw
          have := ((hchecked w).mp hw).2
          rw [hm] at this
          cases this
      | cons r rest =>
          rw [hm] at hall hmatching
          have hrest : rest = [] := by
            rw [List.eq_nil_iff_forall_not_mem]
            intro w hw
            have hrw : r = w := Option.some.inj ((hall r List.mem_cons_self).symm.trans
              (hall w (List.mem_cons_of_mem _ hw)))
            exact (List.nodup_cons.mp hmatching).1 (hrw ▸ hw)
          have hr : r ∈ checkedRow S W base f lookup :=
            (hchecked r).mpr ⟨hall r List.mem_cons_self, by rw [hm]; exact List.mem_cons_self⟩
          rw [hrest]
          cases hc : checkedRow S W base f lookup with
          | nil =>
              rw [hc] at hr
              cases hr
          | cons w tail =>
              rw [hc, List.length_cons] at hlen
              have htail : tail = [] := List.eq_nil_of_length_eq_zero (by omega)
              rw [hc, htail, List.mem_singleton] at hr
              rw [htail, hr]
    rw [hsame]

end Branches

/-- What a lookup needs of a user who satisfies the filter: a name that nobody else has as username
or email, or the external id exactly as it is asked for. -/
def Lookup.Finds (S : Service) (rows : Users.Table) (u : User) : Lookup → Prop
  | .username v => ∀ r ∈ rows, r.answersTo (S.toLowercase (trim v)) = true → r = u
  | .email v => ∀ r ∈ rows, r.answersTo (S.toLowercase (trim v)) = true → r = u
  | .externalId v => u.externalId = some v
  | .id _ => True

section Agreement

variable {S : Service} (pop : Population S) (memberOf : Uuid128 → List Group) (total : ℤ)

variable {limitOne : List User → Option User}

lemma mem_of_foundRow (hpick : Picks limitOne) {lookup : Lookup}
    (hu : u ∈ foundRow S (pop.world memberOf total limitOne) lookup) : u ∈ pop.rows := by
  have hrow := (Option.filter_eq_some_iff.mp hu).1
  cases lookup with
  | username v => exact (List.mem_filter.mp ((hpick _).2 u hrow)).1
  | email v => exact (List.mem_filter.mp ((hpick _).2 u hrow)).1
  | externalId v => exact List.mem_of_find?_eq_some hrow
  | id i =>
      have hget : Users.get pop.rows i = .ok u := by
        rw [lookupRow] at hrow
        cases hg : Users.get (pop.world memberOf total limitOne).rows i with
        | error e =>
            rw [hg] at hrow
            cases hrow
        | ok w =>
            rw [hg] at hrow
            cases hrow
            exact hg
      exact (Users.get_ok hget).1

lemma foundRow_of_alone (hpick : Picks limitOne) (hu : u ∈ pop.rows) (hlive : u.live = true)
    (hname : u.answersTo (S.toLowercase (trim v)) = true)
    (halone : ∀ r ∈ pop.rows, r.answersTo (S.toLowercase (trim v)) = true → r = u) :
    (findByIdentifier S (pop.world memberOf total limitOne) v).filter User.live = some u := by
  have hmem : u ∈ Users.identified pop.rows (S.toLowercase (trim v)) :=
    List.mem_filter.mpr ⟨hu, hname⟩
  rw [findByIdentifier]
  show (limitOne (Users.identified pop.rows _)).filter User.live = some u
  cases hl : limitOne (Users.identified pop.rows (S.toLowercase (trim v))) with
  | none =>
      rw [(hpick _).1 hl] at hmem
      cases hmem
  | some w =>
      obtain ⟨hw, hwname⟩ := List.mem_filter.mp ((hpick _).2 w hl)
      rw [halone w hw hwname, Option.filter_some, if_pos hlive]

lemma foundRow_eq (hlower : LowerLaws S.toLowercase)
    (hpick : Picks limitOne) {lookup : Lookup} (hu : u ∈ pop.rows)
    (hlive : u.live = true) (hholds : lookup.Holds S u) (hfinds : lookup.Finds S pop.rows u) :
    foundRow S (pop.world memberOf total limitOne) lookup = some u := by
  cases lookup with
  | username v =>
      exact foundRow_of_alone pop memberOf total hpick hu hlive
        (pop.answersTo hlower hu hlive (.inl hholds)) hfinds
  | email v =>
      exact foundRow_of_alone pop memberOf total hpick hu hlive
        (pop.answersTo hlower hu hlive (.inr hholds)) hfinds
  | externalId v =>
      have hexternal : u.externalId = some v := hfinds
      show (pop.rows.find? fun r => r.live && r.externalId == some v).filter User.live = some u
      cases hf : pop.rows.find? fun r => r.live && r.externalId == some v with
      | none =>
          have := List.find?_eq_none.mp hf u hu
          simp [hlive, hexternal] at this
      | some w =>
          have hw := List.find?_some hf
          simp only [Bool.and_eq_true, beq_iff_eq] at hw
          have hwu : w = u := pop.eq_of_externalId (List.mem_of_find?_eq_some hf) hu hw.1 hlive hw.2
            hexternal
          rw [hwu, Option.filter_some, if_pos hlive]
  | id i =>
      have hid : u.id = i := Population.id_eq hlower hholds
      show ((Users.get pop.rows i).toOption).filter User.live = some u
      rw [← hid, pop.get_eq hu hlive]
      show (some u).filter User.live = some u
      rw [Option.filter_some, if_pos hlive]

/-- **When index lookups agree with the scan.**  For every set of users a tenant can have, and every
filter with an index lookup, `list_users` answers what the scan would, whatever row the database
picks under `LIMIT 1`, exactly when of each live user who satisfies the filter: the name that is
looked up is nobody else's username or email, or the external id is the one asked for, case
included.  Lookups by id always agree. -/
theorem index_agrees_iff (hlower : LowerLaws S.toLowercase)
    (hcount : (pop.rows.filter User.live).length ≤ scanLimit) (base : String) (q : PageQuery)
    (f : Filter) (lookup : Lookup) (hindexed : indexed f = some lookup) :
    (∀ limitOne, Picks limitOne →
        listUsersBy S (pop.world memberOf total limitOne) base q (some f) =
          listByScan S (pop.world memberOf total limitOne) base q f) ↔
      ∀ u ∈ pop.rows, u.live = true →
        f.matches S.forFilters (userToScim S base u (memberOf u.id)) = true →
        lookup.Finds S pop.rows u := by
  have hbranch : ∀ limitOne, Picks limitOne →
      (listUsersBy S (pop.world memberOf total limitOne) base q (some f) =
          listByScan S (pop.world memberOf total limitOne) base q f ↔
        ∀ u ∈ matchingRows S (pop.world memberOf total limitOne) base f,
          foundRow S (pop.world memberOf total limitOne) lookup = some u) := by
    intro limitOne hpick
    have hby : listUsersBy S (pop.world memberOf total limitOne) base q (some f) =
        .ok (listByIndex S (pop.world memberOf total limitOne) base q f lookup) := by
      rw [listUsersBy, hindexed]
    rw [hby]
    exact branches_agree_iff pop.nodup hcount fun u hu => mem_of_foundRow pop memberOf total hpick hu
  constructor
  · intro hall u hu hlive hmatches
    -- the database may pick any row that has the name
    have hname : ∀ v, lookup = .username v ∨ lookup = .email v → ∀ r ∈ pop.rows,
        r.answersTo (S.toLowercase (trim v)) = true → r = u := by
      intro v hkind r hr hrname
      let limitOne : List User → Option User := fun l => if r ∈ l then some r else l.head?
      have hpick : Picks limitOne := by
        intro l
        by_cases hrl : r ∈ l
        · simp [limitOne, hrl]
        · refine ⟨?_, ?_⟩
          · simp [limitOne, hrl]
          · intro w hw
            simp only [limitOne, if_neg hrl] at hw
            exact List.mem_of_mem_head? hw
      have hfound := (hbranch limitOne hpick).mp (hall limitOne hpick) u
        (mem_matchingRows.mpr ⟨hu, hlive, hmatches⟩)
      have hrow : foundRow S (pop.world memberOf total limitOne) lookup =
          (limitOne (Users.identified pop.rows (S.toLowercase (trim v)))).filter User.live := by
        rcases hkind with rfl | rfl <;> rfl
      have hrmem : r ∈ Users.identified pop.rows (S.toLowercase (trim v)) :=
        List.mem_filter.mpr ⟨hr, hrname⟩
      rw [hrow] at hfound
      simp only [limitOne, if_pos hrmem] at hfound
      exact Option.some.inj (Option.filter_eq_some_iff.mp hfound).1
    cases lookup with
    | username v => exact hname v (.inl rfl)
    | email v => exact hname v (.inr rfl)
    | externalId v =>
        have hfound := (hbranch List.head? picks_head).mp (hall List.head? picks_head) u
          (mem_matchingRows.mpr ⟨hu, hlive, hmatches⟩)
        have hrow := List.find?_some (Option.filter_eq_some_iff.mp hfound).1
        simp only [Bool.and_eq_true, beq_iff_eq] at hrow
        exact hrow.2
    | id i => trivial
  · intro hfinds limitOne hpick
    refine (hbranch limitOne hpick).mpr ?_
    intro u hu
    obtain ⟨hmem, hlive, hmatches⟩ := mem_matchingRows.mp hu
    exact foundRow_eq pop memberOf total hlower hpick hmem hlive (holds_of_matches hindexed hmatches)
      (hfinds u hmem hlive hmatches)

end Agreement

/-! ## A user who is not found -/

def sampleService : Service where
  toLowercase := toAsciiLowercase
  parseF64 _ := none
  f64Value _ := .null
  asF64 _ := 0
  validateEmail e := e.toList.contains '@'
  regex _ := none
  urlScheme _ := none
  parseDate _ := none
  f64Text _ := "0"
  rfc3339Millis _ := "2026-01-01T00:00:00.000Z"

def sampleAlice : User :=
  { id := 1, username := "alice", email := some "a@example.com", createdAt := 0, updatedAt := 0 }

def sampleBob : User := { id := 2, username := "a@example.com", createdAt := 1, updatedAt := 1 }

def samplePopulation : Population sampleService where
  rows := [sampleAlice, sampleBob]
  ids := by decide
  indexes := by decide
  usernames := by
    intro u hu
    simp only [List.mem_cons, List.not_mem_nil, or_false] at hu
    rcases hu with rfl | rfl
    · exact ⟨"alice", rfl⟩
    · exact ⟨"a@example.com", rfl⟩
  emails := by
    intro u hu e he
    simp only [List.mem_cons, List.not_mem_nil, or_false] at hu
    rcases hu with rfl | rfl
    · cases he
      exact ⟨"a@example.com", rfl⟩
    · cases he

def byUserName (name : String) : Filter := .cmp "userName" .eq (.string name)

/-- A lookup of Alice's username. -/
theorem index_agrees_iff_alice :
    (∀ limitOne, Picks limitOne →
        listUsersBy sampleService (samplePopulation.world (fun _ => []) 2 limitOne) "" ⟨none, 1, 200⟩
            (some (byUserName "alice")) =
          listByScan sampleService (samplePopulation.world (fun _ => []) 2 limitOne) "" ⟨none, 1, 200⟩
            (byUserName "alice")) ↔
      ∀ u ∈ samplePopulation.rows, u.live = true →
        (byUserName "alice").matches sampleService.forFilters (userToScim sampleService "" u []) =
          true →
        Lookup.Finds sampleService samplePopulation.rows u (.username "alice") :=
  index_agrees_iff samplePopulation (fun _ => []) 2 lowerLaws_ascii (by decide) "" ⟨none, 1, 200⟩
    (byUserName "alice") (.username "alice") rfl

/-- **A lookup misses a user.**  Bob satisfies `userName eq "a@example.com"`, but the row the
database returns for that name may be Alice's, whose address it is; then nobody is listed. -/
theorem index_misses_user :
    indexed (byUserName "a@example.com") = some (.username "a@example.com") ∧ Picks List.head? ∧
      sampleBob ∈ matchingRows sampleService (samplePopulation.world (fun _ => []) 2 List.head?) ""
        (byUserName "a@example.com") ∧
      checkedRow sampleService (samplePopulation.world (fun _ => []) 2 List.head?) ""
        (byUserName "a@example.com") (.username "a@example.com") = [] ∧
      listUsersBy sampleService (samplePopulation.world (fun _ => []) 2 List.head?) ""
          ⟨none, 1, 200⟩ (some (byUserName "a@example.com")) ≠
        listByScan sampleService (samplePopulation.world (fun _ => []) 2 List.head?) ""
          ⟨none, 1, 200⟩ (byUserName "a@example.com") := by
  have hbob : sampleBob ∈ matchingRows sampleService
      (samplePopulation.world (fun _ => []) 2 List.head?) "" (byUserName "a@example.com") :=
    mem_matchingRows.mpr ⟨by decide, by decide, by decide⟩
  have hfound : foundRow sampleService (samplePopulation.world (fun _ => []) 2 List.head?)
      (.username "a@example.com") = some sampleAlice := by decide
  refine ⟨rfl, picks_head, hbob, by decide, ?_⟩
  intro hsame
  have hagree := (branches_agree_iff samplePopulation.nodup (by decide) (fun u hu =>
    mem_of_foundRow samplePopulation (fun _ => []) 2 picks_head hu)).mp hsame sampleBob hbob
  rw [hfound] at hagree
  exact absurd (Option.some.inj hagree) (by decide)

end Ridm.Scim
