import Ridm.Scim.Users

/-!
# SCIM groups

The document of a group (`group_to_scim`) and the list of groups (`list_groups`), of
`api/src/services/scim.rs`.  The list takes three shortcuts: a filter for a name passes over the other groups
before their documents are built, members are loaded for every group only if the filter reads them, and the
documents of the window are built anew.

* `matches_congr` — a filter that does not read members says the same of documents that differ in nothing
  else.
* `groupHits_kept` — the groups that stay are those whose full documents satisfy the filter.
* `listGroups_eq_full` — the list is that of every group's full document.
-/

namespace Ridm.Scim

/-- `Group`, as far as its own document has it. -/
structure GroupRow extends Group where
  attributes : Value
  createdAt : Instant
  updatedAt : Instant

/-- A member of a group: `groups::member_refs` has the ids and the names. -/
abbrev MemberRef := Uuid128 × String

/-- What the tenant's database answers with. -/
structure Roster where
  groups : List GroupRow
  memberRefs : Uuid128 → List MemberRef

/-! ## Documents -/

/-- The `members` of a group. -/
def membersOf (base : String) (refs : List MemberRef) : Value :=
  .array (refs.map fun r => .object [("value", .string (uuidText r.1)), ("display", .string r.2),
    ("$ref", .string (base ++ "/Users/" ++ uuidText r.1))])

/-- The string attribute a group's client calls it by. -/
def externalIdOf (g : GroupRow) : Option String :=
  ((Users.asObject g.attributes).bind fun a => a.get "externalId").bind Value.asStr

/-- The members of `group_to_scim`. -/
def groupMembers (S : Service) (base : String) (g : GroupRow) (refs : Option (List MemberRef)) : Members :=
  [("schemas", .array [.string groupSchema]), ("id", .string (uuidText g.id)),
    ("displayName", .string g.name), ("meta", metaOf S "Group" base g.id g.createdAt g.updatedAt)] ++
  (optMember "members" (refs.map (membersOf base)) ++
  optMember "externalId" ((externalIdOf g).map .string))

def groupToScim (S : Service) (base : String) (g : GroupRow) (refs : Option (List MemberRef)) : Value :=
  .object (groupMembers S base g refs)

def groupDoc (S : Service) (R : Roster) (base : String) (g : GroupRow) (members : Bool) : Value :=
  if members then groupToScim S base g (some (R.memberRefs g.id)) else groupToScim S base g none

/-- `str::get(..n)`: the first `n` bytes, if they are whole characters. -/
def firstBytes : ℕ → List Char → Option (List Char)
  | 0, _ => some []
  | _ + 1, [] => none
  | n + 1, c :: cs => if c.utf8Size ≤ n + 1 then (firstBytes (n + 1 - c.utf8Size) cs).map (c :: ·) else none

/-- `reads_members`, of one attribute. -/
def namesMembers (attr : String) : Bool :=
  (firstBytes 7 (stripSchema attr).toList).any fun head => eqIgnoreAsciiCase (String.ofList head) "members"

def readsMembers : Filter → Bool
  | .cmp attr _ _ => namesMembers attr
  | .present attr => namesMembers attr
  | .and a b => readsMembers a || readsMembers b
  | .or a b => readsMembers a || readsMembers b
  | .not a => readsMembers a

def excludesMembers (excluded : Option String) : Bool :=
  excluded.any fun list => (split list ',').any fun a => eqIgnoreAsciiCase (stripSchema (trim a)) "members"

/-- A document without its `members`. -/
def withoutMembers : Value → Value
  | .object m => .object (m.filter fun e => e.1 != "members")
  | v => v

/-! ## Listing -/

/-- `window`, of items of any kind. -/
def windowOf {α : Type} (all : List α) (q : PageQuery) : List α :=
  (all.drop (q.startIndex - 1).toNat).take q.count.toNat

/-- The check on the name before anything is built. -/
def passedOver (P : Platform) (f : Filter) (g : GroupRow) : Bool :=
  match f with
  | .cmp attr op value =>
      eqIgnoreAsciiCase attr "displayName" && op == .eq && !compare P .eq (.string g.name) value
  | _ => false

/-- The loop over the groups: a group that stays, with the document the filter was evaluated on. -/
def groupHits (S : Service) (R : Roster) (base : String) : Option Filter → List (GroupRow × Option Value)
  | none => R.groups.map fun g => (g, none)
  | some f => R.groups.filterMap fun g =>
      if passedOver S.forFilters f g then none
      else
        let doc := groupDoc S R base g (readsMembers f)
        if f.matches S.forFilters doc then some (g, some doc) else none

def windowDoc (S : Service) (R : Roster) (base : String) (filterReads exclude : Bool)
    (hit : GroupRow × Option Value) : Value :=
  match hit.2, filterReads with
  | some doc, true => if exclude then withoutMembers doc else doc
  | _, _ => groupDoc S R base hit.1 (!exclude)

/-- `list_groups` once its filter is parsed. -/
def listGroupsBy (S : Service) (R : Roster) (base : String) (q : PageQuery) (exclude : Bool)
    (filter : Option Filter) : ListResponse :=
  let hits := groupHits S R base filter
  listed ((windowOf hits q).map (windowDoc S R base (filter.any readsMembers) exclude)) hits.length q

def listGroups (S : Service) (R : Roster) (base : String) (q : PageQuery) (exclude : Bool) :
    ScimResult ListResponse :=
  match q.filter with
  | none => .ok (listGroupsBy S R base q exclude none)
  | some text => do
      let f ← parseFilter S.forFilters text
      .ok (listGroupsBy S R base q exclude (some f))

/-! ## The list without shortcuts -/

/-- What the list is to be: the full documents that satisfy the filter, cut to the window, and only then
without members. -/
def fullListBy (S : Service) (R : Roster) (base : String) (q : PageQuery) (exclude : Bool)
    (filter : Option Filter) : ListResponse :=
  let docs := (R.groups.map fun g => groupDoc S R base g true).filter fun doc =>
    filter.all fun f => f.matches S.forFilters doc
  listed ((window docs q).map fun doc => if exclude then withoutMembers doc else doc) docs.length q

/-- The same for the text of a filter. -/
def fullList (S : Service) (R : Roster) (base : String) (q : PageQuery) (exclude : Bool) :
    ScimResult ListResponse :=
  match q.filter with
  | none => .ok (fullListBy S R base q exclude none)
  | some text => do
      let f ← parseFilter S.forFilters text
      .ok (fullListBy S R base q exclude (some f))

/-! ## What a filter reads -/

/-- The members of an object but those called `members`, schema and case aside. -/
def otherMembers (m : Members) : Members := m.filter fun e => ciKey e.1 ≠ "members"

lemma findCi_otherMembers (m : Members) {key : String} (hkey : ciKey key ≠ "members") :
    findCi (otherMembers m) key = findCi m key := by
  induction m with
  | nil => rfl
  | cons e m ih =>
      obtain ⟨k, v⟩ := e
      by_cases hk : ciKey k = "members"
      · have hdrop : otherMembers ((k, v) :: m) = otherMembers m :=
          List.filter_cons_of_neg (by simp [hk])
        rw [hdrop, ih, findCi_cons, if_neg fun h => hkey (h.symm.trans hk)]
      · have hkeep : otherMembers ((k, v) :: m) = (k, v) :: otherMembers m :=
          List.filter_cons_of_pos (by simp [hk])
        rw [hkeep, findCi_cons, findCi_cons, ih]

lemma stripSchema_of_not_schema {s : String} (huser : ¬ userSchema.toList <+: s.toList)
    (hgroup : ¬ groupSchema.toList <+: s.toList) : stripSchema s = s := by
  have hnone : ∀ schema : String, ¬ schema.toList <+: s.toList → stripPrefix s schema = none := by
    intro schema hschema
    rw [stripPrefix, if_neg]
    exact fun h => hschema (List.isPrefixOf_iff_prefix.mp h)
  rw [stripSchema, hnone userSchema huser, hnone groupSchema hgroup]

lemma stripSchema_of_no_dot {part : String} (h : '.' ∉ part.toList) : stripSchema part = part :=
  stripSchema_of_not_schema (fun hschema => h (hschema.subset (by decide)))
    fun hschema => h (hschema.subset (by decide))

lemma mem_members_letters {c : Char} (h : c.toLower ∈ "members".toList) :
    c ∈ ['m', 'e', 'b', 'r', 's', 'M', 'E', 'B', 'R', 'S'] := by
  revert h
  refine toLower_cases (p := fun c => c.toLower ∈ "members".toList →
    c ∈ ['m', 'e', 'b', 'r', 's', 'M', 'E', 'B', 'R', 'S']) ?_ (by decide) c
  intro c hc h
  rw [hc] at h
  have hsub : "members".toList ⊆ ['m', 'e', 'b', 'r', 's', 'M', 'E', 'B', 'R', 'S'] := by decide
  exact hsub h

lemma firstBytes_append {rest : List Char} : ∀ l : List Char, (∀ c ∈ l, c.utf8Size = 1) →
    firstBytes l.length (l ++ rest) = some l := by
  intro l
  induction l with
  | nil => exact fun _ => by cases rest <;> rfl
  | cons c l ih =>
      intro hl
      have hc := hl c List.mem_cons_self
      rw [List.length_cons, List.cons_append, firstBytes, hc, if_pos (Nat.le_add_left 1 _), Nat.add_sub_cancel,
        ih fun c' hc' => hl c' (List.mem_cons_of_mem _ hc')]
      rfl

lemma first_part {path part : String} {parts : List String} (hsplit : split path '.' = part :: parts) :
    '.' ∉ part.toList ∧ ∃ rest, path.toList = part.toList ++ rest := by
  obtain ⟨l, ls, hl⟩ := List.exists_cons_of_ne_nil (List.splitOn_ne_nil '.' path.toList)
  rw [split, hl, List.map_cons, List.cons.injEq] at hsplit
  obtain ⟨rfl, -⟩ := hsplit
  rw [String.toList_ofList]
  refine ⟨notMem_of_mem_splitOn (hl ▸ List.mem_cons_self), ?_⟩
  have hjoin : ['.'].intercalate (path.toList.splitOn '.') = path.toList :=
    List.intercalate_splitOn '.'
  rw [hl] at hjoin
  cases ls with
  | nil => exact ⟨[], by rw [← hjoin]; rfl⟩
  | cons l' ls => exact ⟨_, hjoin.symm⟩

lemma namesMembers_of_part {path part : String} {parts : List String} (hsplit : split path '.' = part :: parts)
    (hpart : ciKey part = "members") : namesMembers path = true := by
  obtain ⟨hdot, rest, hpath⟩ := first_part hsplit
  rw [ciKey, stripSchema_of_no_dot hdot] at hpart
  have hlower : part.toList.map Char.toLower = "members".toList := by
    rw [← hpart, toAsciiLowercase, String.toList_ofList]
  have hletters : ∀ c ∈ part.toList, c ∈ ['m', 'e', 'b', 'r', 's', 'M', 'E', 'B', 'R', 'S'] := by
    intro c hc
    exact mem_members_letters (hlower ▸ List.mem_map_of_mem hc)
  have hlen : part.toList.length = 7 := by
    have hlens := congrArg List.length hlower
    rwa [List.length_map] at hlens
  have hsize : ∀ c ∈ part.toList, c.utf8Size = 1 := by
    intro c hc
    have hall : ∀ c ∈ ['m', 'e', 'b', 'r', 's', 'M', 'E', 'B', 'R', 'S'], c.utf8Size = 1 := by
      simp only [List.forall_mem_cons]
      exact ⟨rfl, rfl, rfl, rfl, rfl, rfl, rfl, rfl, rfl, rfl, List.forall_mem_nil _⟩
    exact hall c (hletters c hc)
  have hstrip : stripSchema path = path := by
    obtain ⟨c, cs, hcs⟩ := List.exists_cons_of_length_eq_add_one hlen
    have hall : ∀ c ∈ ['m', 'e', 'b', 'r', 's', 'M', 'E', 'B', 'R', 'S'], c ≠ 'u' := by
      simp
    have hu := hall c (hletters c (hcs ▸ List.mem_cons_self))
    have hschema : ∀ tail : List Char, ¬ ('u' :: tail) <+: path.toList := by
      intro tail htail
      rw [hpath, hcs, List.cons_append, List.cons_prefix_cons] at htail
      exact hu htail.1.symm
    exact stripSchema_of_not_schema (hschema _) (hschema _)
  rw [namesMembers, hstrip, hpath, ← hlen, firstBytes_append _ hsize, Option.any_some, String.ofList_toList,
    eqIgnoreAsciiCase, hpart]
  rfl

/-- **A filter that does not read members does not depend on them.** -/
lemma matches_congr (P : Platform) {m m' : Members} (hm : otherMembers m = otherMembers m') :
    ∀ f : Filter, readsMembers f = false → f.matches P (.object m) = f.matches P (.object m') := by
  have hselect : ∀ path, namesMembers path = false → select (.object m) path = select (.object m') path := by
    intro path hpath
    obtain ⟨part, parts, hsplit⟩ := List.exists_cons_of_ne_nil (split_ne_nil path '.')
    have hpart : ciKey part ≠ "members" := by
      intro h
      rw [namesMembers_of_part hsplit h] at hpath
      cases hpath
    have hfirst : selectStep part (.object m) = selectStep part (.object m') := by
      show (findCi m part).toList = (findCi m' part).toList
      rw [← findCi_otherMembers m hpart, hm, findCi_otherMembers m' hpart]
    rw [select, select, hsplit, List.foldl_cons, List.foldl_cons, List.flatMap_singleton,
      List.flatMap_singleton, hfirst]
  intro f
  induction f with
  | cmp attr op value =>
      intro hf
      rw [Filter.matches, Filter.matches, hselect attr hf]
  | present attr =>
      intro hf
      rw [Filter.matches, Filter.matches, hselect attr hf]
  | and a b iha ihb =>
      intro hf
      obtain ⟨ha, hb⟩ := Bool.or_eq_false_iff.mp hf
      rw [Filter.matches, Filter.matches, iha ha, ihb hb]
  | or a b iha ihb =>
      intro hf
      obtain ⟨ha, hb⟩ := Bool.or_eq_false_iff.mp hf
      rw [Filter.matches, Filter.matches, iha ha, ihb hb]
  | not a ih =>
      intro hf
      rw [Filter.matches, Filter.matches, ih hf]

/-! ## The shortcuts -/

section Shortcuts

variable (S : Service) (R : Roster) (base : String)

lemma ciKey_group_names : ciKey "schemas" ≠ "members" ∧ ciKey "id" ≠ "members" ∧
    ciKey "displayName" ≠ "members" ∧ ciKey "meta" ≠ "members" ∧ ciKey "externalId" ≠ "members" ∧
      ciKey "members" = "members" := by decide

lemma otherMembers_groupMembers (g : GroupRow) (refs : Option (List MemberRef)) :
    otherMembers (groupMembers S base g refs) = groupMembers S base g none := by
  obtain ⟨hschemas, hid, hname, hmeta, hexternal, hmembers⟩ := ciKey_group_names
  cases refs <;> cases externalIdOf g <;>
    simp [otherMembers, groupMembers, optMember, *]

lemma withoutMembers_groupDoc (g : GroupRow) :
    withoutMembers (groupDoc S R base g true) = groupDoc S R base g false := by
  show Value.object _ = Value.object _
  cases externalIdOf g <;>
    simp [groupMembers, optMember]

lemma matches_groupDoc (g : GroupRow) (f : Filter) :
    f.matches S.forFilters (groupDoc S R base g (readsMembers f)) =
      f.matches S.forFilters (groupDoc S R base g true) := by
  cases hreads : readsMembers f with
  | true => rfl
  | false =>
      refine matches_congr S.forFilters ?_ f hreads
      rw [otherMembers_groupMembers, otherMembers_groupMembers]

lemma select_displayName (g : GroupRow) {attr : String} (hattr : eqIgnoreAsciiCase attr "displayName" = true) :
    select (groupDoc S R base g true) attr = [.string g.name] := by
  have hlower : toAsciiLowercase attr = toAsciiLowercase "displayName" := eq_of_beq hattr
  have hdot : '.' ∉ attr.toList := by
    intro hmem
    have hlowered : Char.toLower '.' ∈ attr.toList.map Char.toLower := List.mem_map_of_mem hmem
    rw [← toList_toAsciiLowercase, hlower] at hlowered
    revert hlowered
    decide
  have hsplit : split attr '.' = [attr] := by
    have hone := split_intercalate (c := '.') (l := [attr]) (List.cons_ne_nil _ _)
      (by intro s hs; rwa [List.mem_singleton.mp hs])
    exact hone
  have hkey : ciKey attr = ciKey "displayName" := by
    rw [ciKey, ciKey, stripSchema_of_no_dot hdot, stripSchema_of_no_dot (by decide), hlower]
  have hname : getCi (groupDoc S R base g true) attr = some (.string g.name) := by
    rw [getCi_congr _ hkey]
    simp [groupDoc, groupToScim, getCi, groupMembers, findCi_cons, ciKey_names]
  rw [select, hsplit, List.foldl_cons, List.foldl_nil, List.flatMap_singleton]
  show (getCi (groupDoc S R base g true) attr).toList.flatMap selectLeaves = _
  rw [hname]
  rfl

lemma matches_of_passedOver {g : GroupRow} {f : Filter} (h : passedOver S.forFilters f g = true) :
    f.matches S.forFilters (groupDoc S R base g true) = false := by
  cases f with
  | cmp attr op value =>
      simp only [passedOver, Bool.and_eq_true, Bool.not_eq_true', beq_iff_eq] at h
      obtain ⟨⟨hattr, rfl⟩, hcompare⟩ := h
      rw [Filter.matches, select_displayName S R base g hattr]
      show (compare S.forFilters .eq (.string g.name) value || false) = false
      rw [hcompare]
      rfl
  | _ => cases h

/-- The groups whose full documents satisfy the filter. -/
def keptGroups (filter : Option Filter) : List GroupRow :=
  R.groups.filter fun g => filter.all fun f => f.matches S.forFilters (groupDoc S R base g true)

lemma groupHits_kept (filter : Option Filter) : groupHits S R base filter =
    (keptGroups S R base filter).map
      fun g => (g, filter.map fun f => groupDoc S R base g (readsMembers f)) := by
  cases filter with
  | none =>
      have hall : keptGroups S R base none = R.groups := List.filter_eq_self.mpr fun _ _ => rfl
      rw [hall]
      rfl
  | some f =>
      rw [groupHits, keptGroups, ← List.filterMap_eq_map, List.filterMap_filter]
      refine List.filterMap_congr fun g _ => ?_
      simp only [Option.all_some, Option.map_some, matches_groupDoc]
      cases hpassed : passedOver S.forFilters f g with
      | true =>
          rw [matches_of_passedOver S R base hpassed]
          rfl
      | false => rfl

lemma windowDoc_full (reads exclude : Bool) (g : GroupRow) {doc : Option Value}
    (hdoc : reads = true → ∀ d ∈ doc, d = groupDoc S R base g true) :
    windowDoc S R base reads exclude (g, doc) =
      if exclude then withoutMembers (groupDoc S R base g true) else groupDoc S R base g true := by
  have hrebuilt : groupDoc S R base g (!exclude) =
      if exclude then withoutMembers (groupDoc S R base g true) else groupDoc S R base g true := by
    cases exclude with
    | true => exact (withoutMembers_groupDoc S R base g).symm
    | false => rfl
  cases reads with
  | false => cases doc <;> exact hrebuilt
  | true =>
      cases doc with
      | none => exact hrebuilt
      | some d =>
          rw [hdoc rfl d rfl]
          rfl

lemma map_windowOf {α β : Type} (f : α → β) (l : List α) (q : PageQuery) :
    (windowOf l q).map f = windowOf (l.map f) q := by
  rw [windowOf, windowOf, List.map_take, List.map_drop]

lemma listGroupsBy_eq_full (q : PageQuery) (exclude : Bool) (filter : Option Filter) :
    listGroupsBy S R base q exclude filter = fullListBy S R base q exclude filter := by
  have hdocs : ((R.groups.map fun g => groupDoc S R base g true).filter fun doc =>
      filter.all fun f => f.matches S.forFilters doc) =
        (keptGroups S R base filter).map fun g => groupDoc S R base g true := by
    rw [keptGroups, List.filter_map]
    rfl
  have hwindow : ∀ g, windowDoc S R base (filter.any readsMembers) exclude
      (g, filter.map fun f => groupDoc S R base g (readsMembers f)) =
        if exclude then withoutMembers (groupDoc S R base g true) else groupDoc S R base g true := by
    intro g
    refine windowDoc_full S R base _ exclude g ?_
    intro hreads d hd
    cases filter with
    | none => cases hreads
    | some f =>
        have hf : readsMembers f = true := hreads
        have hdoc : groupDoc S R base g (readsMembers f) = d := Option.some.inj hd
        rw [← hdoc, hf]
  have hcut : window ((keptGroups S R base filter).map fun g => groupDoc S R base g true) q =
      windowOf ((keptGroups S R base filter).map fun g => groupDoc S R base g true) q := rfl
  rw [listGroupsBy, fullListBy, hdocs, hcut, groupHits_kept, map_windowOf, map_windowOf, List.map_map, List.map_map, List.length_map,
    List.length_map]
  have hsame : (windowDoc S R base (filter.any readsMembers) exclude ∘
      fun g => (g, filter.map fun f => groupDoc S R base g (readsMembers f))) =
        (fun doc => if exclude then withoutMembers doc else doc) ∘ fun g => groupDoc S R base g true :=
    funext hwindow
  rw [hsame]

end Shortcuts

/-- **The shortcuts change nothing.**  The list of groups is the list of every group's full document that
satisfies the filter, cut to the window and then without members where they are excluded.  And a filter that
does not read members says the same of any two documents that differ in nothing but their members. -/
theorem listGroups_eq_full (S : Service) (R : Roster) (base : String) (q : PageQuery) (exclude : Bool) :
    listGroups S R base q exclude = fullList S R base q exclude ∧
      ∀ f, readsMembers f = false → ∀ m m' : Members, otherMembers m = otherMembers m' →
        f.matches S.forFilters (.object m) = f.matches S.forFilters (.object m') := by
  refine ⟨?_, fun f hf m m' hm => matches_congr S.forFilters hm f hf⟩
  have hby : listGroupsBy S R base q exclude = fullListBy S R base q exclude :=
    funext fun filter => listGroupsBy_eq_full S R base q exclude filter
  rw [listGroups, fullList, hby]

end Ridm.Scim
