import Ridm.Ldap.Subjects
import Ridm.Roles.GroupTree

/-!
# Synchronising the groups of a directory

`sync_groups` of `api/src/services/ldap.rs`, with `ensure_group`, `all_members` and `member_users`, on the
tables of the groups.  Each group entry that is read gets a group, created or renamed as needed, and
its members; then the owned groups that no entry was seen of are deleted.

An entry is seen when `ensure_group` has a group for it.  It gives up where the name attribute is
missing or too long, so that a group whose entry is still there is deleted; and a deleted group takes
those below it along, also an administrator's.  `sync_deletes_only_gone_iff` says when neither happens.
-/

namespace Ridm.Ldap.GroupSync

open Roles (Group Membership NewGroup GroupUpdate)
open Relation (ReflTransGen)

/-! ## The directory -/

/-- `LdapMembership`. -/
inductive MembershipKind
  | dn
  | username

/-- `Directory`, as far as the groups need it. -/
structure Dir where
  aliasName : String
  displayName : String
  uuidAttribute : String
  groupsDn : Option String
  groupNameAttribute : String := "cn"
  groupMemberAttribute : String := "member"
  groupMembership : MembershipKind := .dn
  groupParentId : Option Uuid := none

/-- A group entry, with the names of its text attributes in the order the map gives them. -/
structure Entry extends Search.Entry where
  keys : List String

/-- A row of `federated_identities` of this directory. -/
structure UserLink where
  userId : Uuid
  externalDn : Option String
  externalUsername : Option String

/-- A group and the entry it stands for. -/
structure GroupLink where
  externalId : String
  groupId : Uuid
  externalDn : String

/-- What the sync finds around it. -/
structure Env where
  dir : Dir
  /-- `str::to_lowercase`, and `lower` of the database. -/
  lower : String → String
  userLinks : List UserLink
  /-- The ids that `Uuid::now_v7` gives. -/
  draw : ℕ → Uuid
  search : String → String → Except String (List Entry)
  listing : Except String (List Entry)
  order : List GroupLink → List GroupLink
  order_perm : ∀ links, (order links).Perm links

def unavailable (dir : Dir) (text : String) : AppError :=
  .unavailable ("directory `" ++ dir.aliasName ++ "`: " ++ text)

/-! ## Members -/

/-- `parse::<u64>`. -/
def parseU64 (s : String) : Option ℕ :=
  let digits := (stripPrefix s "+").getD s
  if digits ≠ "" ∧ digits.toList.all isAsciiDigit ∧ Nat.ofDigitChars 10 digits.toList 0 < 2 ^ 64 then
    some (Nat.ofDigitChars 10 digits.toList 0)
  else none

/-- The key of the values served as a range, and the range. -/
def rangeKey (dir : Dir) (e : Entry) : Option (String × String) :=
  e.keys.findSome? fun k =>
    (stripPrefix k (toAsciiLowercase dir.groupMemberAttribute ++ ";range=")).map fun r => (k, r)

/-- The loop of `all_members`: the ranges from an answer on, so many of them at most. -/
def ranges (E : Env) (dn : String) : ℕ → Entry → Except AppError (List String)
  | 0, _ => .ok []
  | n + 1, current =>
      match rangeKey E.dir current with
      | none => .ok []
      | some (key, range) =>
          let here := (current.attrs key).getD []
          match (splitOnce range '-').bind fun r => parseU64 r.2 with
          | none => .ok here
          | some last =>
              match E.search dn (E.dir.groupMemberAttribute ++ ";range=" ++
                  toString ((last + 1) % 2 ^ 64) ++ "-*") with
              | .error text => .error (unavailable E.dir text)
              | .ok [] => .ok here
              | .ok (next :: _) => (ranges E dn n next).map (here ++ ·)

def allMembers (E : Env) (e : Entry) : Except AppError (List String) :=
  (ranges E e.dn 1000 e).map (e.values E.dir.groupMemberAttribute ++ ·)

def memberUsers (E : Env) (members : List String) : List Uuid :=
  (E.userLinks.filter fun l =>
    match E.dir.groupMembership with
    | .dn => l.externalDn.any fun dn => (members.map E.lower).contains (E.lower dn)
    | .username => l.externalUsername.any members.contains).map UserLink.userId

/-! ## Groups -/

/-- What the sync has at hand, in memory and in the tables: the groups, the links, the names it has
read, and what it has seen. -/
structure Walk where
  d : Roles.Directory
  links : List GroupLink
  names : List (Uuid × String)
  seen : List String := []
  drawn : ℕ := 0

/-- `entry.uuid`. -/
def Entry.externalId (dir : Dir) (e : Entry) : Option String := e.uuid dir.uuidAttribute

def groupName (dir : Dir) (e : Entry) : Option String :=
  ((e.first dir.groupNameAttribute).map trim).filter fun n => !n.isEmpty && n.utf8ByteSize ≤ 200

/-- The name of a group whose own name is taken. -/
def fallback (dir : Dir) (name : String) : String := name ++ " (" ++ dir.aliasName ++ ")"

def Walk.link (w : Walk) (ext : String) : Option GroupLink := w.links.find? fun l => l.externalId == ext

def Walk.nameOf (w : Walk) (group : Uuid) : Option String :=
  (w.names.find? fun n => n.1 == group).map Prod.snd

/-- A patch of nothing but the name. -/
def nameOnly (name : String) : GroupUpdate := ⟨some name, none, none, none⟩

/-- The loop that renames a group: to the first name that is free. -/
def rename (group : Uuid) : List String → Walk → Except AppError Unit × Walk
  | [], w => (.ok (), w)
  | candidate :: rest, w =>
      match w.d.updateGroup group (nameOnly candidate) with
      | .ok d => (.ok (), { w with d := d, names := (group, candidate) :: w.names })
      | .error (.conflict _) => rename group rest w
      | .error e => (.error e, w)

/-- The loop that creates a group: under the first name that is free. -/
def create (E : Env) : List String → Walk → Except AppError (Option (Uuid × String)) × Walk
  | [], w => (.ok none, w)
  | candidate :: rest, w =>
      let w' := { w with drawn := w.drawn + 1 }
      match w.d.createGroup (E.draw w.drawn)
        ⟨candidate, E.dir.groupParentId, some ("Synced from " ++ E.dir.displayName), none⟩ with
      | .ok d => (.ok (some (E.draw w.drawn, trim candidate)), { w' with d := d })
      | .error (.conflict _) => create E rest w'
      | .error e => (.error e, w')

/-- `set_group_link_dn`. -/
def Walk.setDn (w : Walk) (ext dn : String) : Walk :=
  { w with links := w.links.map fun l => if l.externalId = ext then { l with externalDn := dn } else l }

/-- The branch of `ensure_group` for an entry with a link. -/
def keepGroup (E : Env) (link : GroupLink) (name : String) (e : Entry) (w : Walk) :
    Except AppError (Option Uuid) × Walk :=
  match w.nameOf link.groupId with
  | none => (.ok none, w)
  | some current =>
      match if current ≠ name ∧ current ≠ fallback E.dir name then
          rename link.groupId [name, fallback E.dir name] w else (.ok (), w) with
      | (.error x, w) => (.error x, w)
      | (.ok _, w) =>
          (.ok (some link.groupId),
            if eqIgnoreAsciiCase link.externalDn e.dn then w else w.setDn link.externalId e.dn)

/-- The branch for an entry without one. -/
def newGroup (E : Env) (ext name : String) (e : Entry) (w : Walk) : Except AppError (Option Uuid) × Walk :=
  match create E [name, fallback E.dir name] w with
  | (.error x, w) => (.error x, w)
  | (.ok none, w) => (.ok none, w)
  | (.ok (some (group, created)), w) =>
      (.ok (some group),
        { w with links := ⟨ext, group, e.dn⟩ :: w.links, names := (group, created) :: w.names })

def ensureGroup (E : Env) (e : Entry) (w : Walk) : Except AppError (Option Uuid) × Walk :=
  match e.externalId E.dir, groupName E.dir e with
  | some ext, some name =>
      match w.link ext with
      | some link => keepGroup E link name e w
      | none => newGroup E ext name e w
  | _, _ => (.ok none, w)

/-! ## The sync -/

/-- `directory_members`: the members of a group who are linked to the directory. -/
def directoryMembers (E : Env) (d : Roles.Directory) (group : Uuid) : List Uuid :=
  ((d.members.filter fun m => m.of == group).map Membership.userId).filter
    fun u => E.userLinks.any fun l => l.userId == u

/-- The members a group is to have of the directory, instead of those it has. -/
def setMembers (E : Env) (group : Uuid) (desired : List Uuid) (w : Walk) : Except AppError Unit × Walk :=
  let current := directoryMembers E w.d group
  let toAdd := (desired.filter fun u => !current.contains u).dedup
  let toRemove := current.filter fun u => !desired.contains u
  if hgroup : group ∈ w.d.groups.map Group.id then
    (.ok (), { w with
      d := { w.d with
        members := toAdd.map (⟨group, ·⟩) ++ w.d.members.filter fun m =>
          !(m.of == group && toRemove.contains m.userId)
        memberKey := by
          intro m hm
          rcases List.mem_append.mp hm with hm | hm
          · obtain ⟨u, -, rfl⟩ := List.mem_map.mp hm
            exact hgroup
          · exact w.d.memberKey m (List.mem_filter.mp hm).1 } })
  else if toAdd = [] then (.ok (), w)
  else (.error .database, w)

/-- The body of the loop of `sync_groups`. -/
def syncEntry (E : Env) (e : Entry) (w : Walk) : Except AppError Unit × Walk :=
  match ensureGroup E e w with
  | (.error x, w) => (.error x, w)
  | (.ok none, w) => (.ok (), w)
  | (.ok (some group), w) =>
      let w := { w with seen := (e.externalId E.dir).toList ++ w.seen }
      match allMembers E e with
      | .error x => (.error x, w)
      | .ok members => setMembers E group (memberUsers E members) w

/-- The loop of `sync_groups` over the entries. -/
def syncEntries (E : Env) : List Entry → Walk → Except AppError Unit × Walk
  | [], w => (.ok (), w)
  | e :: rest, w =>
      match syncEntry E e w with
      | (.error x, w) => (.error x, w)
      | (.ok _, w) => syncEntries E rest w

/-- A group deleted, with its link and those below it. -/
def Walk.deleteGroup (w : Walk) (group : Uuid) : Walk :=
  let d := w.d.deleteGroup group
  { w with d := d, links := w.links.filter fun l => (d.groups.map Group.id).contains l.groupId }

/-- The loop of `sync_groups` over the links that no entry was seen of. -/
def sweep : List GroupLink → Walk → Walk
  | [], w => w
  | l :: rest, w => sweep rest (if w.seen.contains l.externalId then w else w.deleteGroup l.groupId)

/-- The tables: the groups, and the links of the directory with their constraints. -/
structure Tables where
  d : Roles.Directory
  links : List GroupLink
  linkKey : (links.map GroupLink.externalId).Nodup
  groupKey : (links.map GroupLink.groupId).Nodup
  refKey : ∀ l ∈ links, l.groupId ∈ d.groups.map Group.id

/-- What the sync reads first: the links, and the names of their groups. -/
def Tables.start (t : Tables) : Walk where
  d := t.d
  links := t.links
  names := (t.d.groups.filter fun g => (t.links.map GroupLink.groupId).contains g.id).map fun g => (g.id, g.name)

/-- `sync_groups`, with what it leaves. -/
def syncGroups (E : Env) (t : Tables) : Except AppError Unit × Walk :=
  match E.dir.groupsDn, E.listing with
  | none, _ => (.ok (), t.start)
  | some _, .error text => (.error (unavailable E.dir text), t.start)
  | some _, .ok entries =>
      match syncEntries E entries t.start with
      | (.error x, w) => (.error x, w)
      | (.ok _, w) => (.ok (), if entries.isEmpty then w else sweep (E.order w.links) w)

/-! ## What a deletion leaves -/

section Deletion

variable {d : Roles.Directory} {group a b : Uuid}

lemma subset_cascade {n : ℕ} {rows kept : List Group} (hsub : kept ⊆ rows)
    (hclosed : ∀ g ∈ kept, ∀ p ∈ g.parentId, p ∈ kept.map Group.id) : kept ⊆ Roles.cascade n rows := by
  induction n generalizing rows with
  | zero => exact hsub
  | succ n ih =>
      refine ih fun g hg => List.mem_filter.mpr ⟨hsub hg, ?_⟩
      cases hp : g.parentId with
      | none => rfl
      | some p =>
          obtain ⟨g', hg', hid⟩ := List.mem_map.mp (hclosed g hg p hp)
          exact List.contains_iff_mem.mpr (List.mem_map.mpr ⟨g', hsub hg', hid⟩)

lemma findGroup_of_mem {g : Group} (hg : g ∈ d.groups) : d.findGroup g.id = some g := by
  cases hfound : d.findGroup g.id with
  | none => exact absurd (List.mem_map_of_mem hg) (Roles.Directory.findGroup_eq_none.mp hfound)
  | some g' =>
      have hmem := List.mem_of_find?_eq_some hfound
      rw [List.inj_on_of_nodup_map d.groupKey hmem hg (Roles.Directory.findGroup_id hfound)]

lemma above_of_mem {g : Group} (hg : g ∈ d.groups) : d.Above g.id b ↔ g.parentId = some b := by
  rw [Roles.Directory.above_iff]
  constructor
  · rintro ⟨o, ho, hparent⟩
    rw [findGroup_of_mem hg] at ho
    rwa [Option.some.inj ho]
  · intro hparent
    exact ⟨g, findGroup_of_mem hg, hparent⟩

/-- A group is another, or below it. -/
def Under (d : Roles.Directory) (a b : Uuid) : Prop := ReflTransGen d.Above a b

/-- **A deletion takes a group and those below it**, and no other. -/
lemma mem_deleteGroup {g : Group} :
    g ∈ (d.deleteGroup group).groups ↔ g ∈ d.groups ∧ ¬ Under d g.id group := by
  have hgroups : (d.deleteGroup group).groups = d.groupsWithout group := rfl
  constructor
  · intro hg
    rw [hgroups] at hg
    have hmem := (d.groupsWithout_sublist group).subset hg
    refine ⟨hmem, ?_⟩
    intro hunder
    -- from a row that stays the way up goes over rows that stay
    have hstays : ∀ c, ReflTransGen d.Above g.id c → c ∈ (d.groupsWithout group).map Group.id := by
      intro c hpath
      induction hpath with
      | refl => exact List.mem_map_of_mem hg
      | @tail b c _ hab ih =>
          obtain ⟨o, ho, rfl⟩ := List.mem_map.mp ih
          have hparent := (above_of_mem ((d.groupsWithout_sublist group).subset ho)).mp hab
          exact (d.deleteGroup group).parentKey o ho c hparent
    obtain ⟨o, ho, hid⟩ := List.mem_map.mp (hstays group hunder)
    have hne := (List.mem_filter.mp ((Roles.cascade_sublist _ _).subset ho)).2
    rw [hid] at hne
    simp at hne
  · rintro ⟨hg, hnot⟩
    classical
    have hkept : d.groups.filter (fun o => ¬ Under d o.id group) ⊆ d.groupsWithout group := by
      refine subset_cascade ?_ ?_
      · intro o ho
        obtain ⟨hmem, hout⟩ := List.mem_filter.mp ho
        refine List.mem_filter.mpr ⟨hmem, ?_⟩
        rw [bne_iff_ne]
        intro heq
        exact (of_decide_eq_true hout) (heq ▸ ReflTransGen.refl)
      · intro o ho p hp
        obtain ⟨hmem, hout⟩ := List.mem_filter.mp ho
        obtain ⟨q, hq, rfl⟩ := List.mem_map.mp (d.parentKey o hmem p hp)
        refine List.mem_map_of_mem (List.mem_filter.mpr ⟨hq, decide_eq_true ?_⟩)
        intro hunder
        exact (of_decide_eq_true hout) (ReflTransGen.head ((above_of_mem hmem).mpr hp) hunder)
    exact hkept (List.mem_filter.mpr ⟨hg, decide_eq_true hnot⟩)

lemma under_deleteGroup {g : Group} (hg : g ∈ (d.deleteGroup group).groups) :
    Under (d.deleteGroup group) g.id b ↔ Under d g.id b := by
  have hsub : ∀ {o : Group}, o ∈ (d.deleteGroup group).groups → o ∈ d.groups := fun h =>
    (mem_deleteGroup.mp h).1
  constructor
  · intro h
    refine ReflTransGen.mono (fun x y hxy => ?_) _ _ h
    obtain ⟨o, ho, hparent⟩ := Roles.Directory.above_iff.mp hxy
    have hmem := List.mem_of_find?_eq_some ho
    obtain rfl := Roles.Directory.findGroup_id ho
    exact (above_of_mem (hsub hmem)).mpr hparent
  · intro h
    have hpath : ∀ c, ReflTransGen d.Above g.id c → ReflTransGen (d.deleteGroup group).Above g.id c ∧
        c ∈ (d.deleteGroup group).groups.map Group.id := by
      intro c hpath
      induction hpath with
      | refl => exact ⟨ReflTransGen.refl, List.mem_map_of_mem hg⟩
      | @tail x c _ hxc ih =>
          obtain ⟨hway, hx⟩ := ih
          obtain ⟨o, ho, rfl⟩ := List.mem_map.mp hx
          have hparent := (above_of_mem (hsub ho)).mp hxc
          exact ⟨hway.tail ((above_of_mem ho).mpr hparent),
            (d.deleteGroup group).parentKey o ho c hparent⟩
    exact (hpath b h).1

end Deletion

/-! ## What a step does -/

section Steps

variable {E : Env} {t : Tables} {w w' : Walk} {e : Entry}

lemma updateGroup_ok {d d' : Roles.Directory} {group : Uuid} {name : String}
    (h : d.updateGroup group (nameOnly name) = .ok d') :
    d'.members = d.members ∧ d'.groups.map Group.id = d.groups.map Group.id ∧
      ∀ g ∈ d.groups, ∃ g' ∈ d'.groups, g'.id = g.id ∧ (g.id ≠ group → g' = g) := by
  rw [Roles.Directory.updateGroup, if_neg (by simp [nameOnly, GroupUpdate.isEmpty]),
    Roles.Directory.changeGroup, bind_eq_ok] at h
  obtain ⟨valid, -, h⟩ := h
  rw [bind_eq_ok] at h
  obtain ⟨_, -, h⟩ := h
  rw [bind_eq_ok] at h
  obtain ⟨updated, hreplace, hsome⟩ := h
  obtain rfl : updated = some d' := by
    cases updated with
    | none => cases hsome
    | some x => rw [Except.ok.inj hsome]
  unfold Roles.Directory.replaceGroup at hreplace
  split at hreplace
  · cases hreplace
  · rename_i g hfound
    dsimp only at hreplace
    split_ifs at hreplace
    obtain rfl := Option.some.inj (Except.ok.inj hreplace)
    have hgid := Roles.Directory.findGroup_id hfound
    refine ⟨rfl, ?_, ?_⟩
    · rw [List.map_map]
      refine List.map_congr_left fun o _ => ?_
      rw [Function.comp_apply]
      split_ifs with ho
      · exact hgid.trans ho.symm
      · rfl
    · intro o ho
      by_cases hid : o.id = group
      · exact ⟨_, List.mem_map.mpr ⟨o, ho, if_pos hid⟩, hgid.trans hid.symm, fun hne => absurd hid hne⟩
      · exact ⟨o, List.mem_map.mpr ⟨o, ho, if_neg hid⟩, rfl, fun _ => rfl⟩

lemma createGroup_ok {d d' : Roles.Directory} {group : Uuid} {input : NewGroup}
    (h : d.createGroup group input = .ok d') :
    d'.members = d.members ∧ group ∉ d.groups.map Group.id ∧
      ∃ row : Group, row.id = group ∧ d'.groups = row :: d.groups := by
  simp only [Roles.Directory.createGroup, bind_eq_ok] at h
  obtain ⟨name, -, _, -, _, -, _, -, h⟩ := h
  unfold Roles.Directory.insertGroup at h
  split_ifs at h with hkey hparent
  obtain rfl := Except.ok.inj h
  exact ⟨rfl, fun hmem => hkey (.inl hmem), _, rfl, rfl⟩

/-- What holds of the tables while the entries are gone through: the groups there were are there, and
those that are not the directory's have their names; the links there were are there; a link that is
new has a group that is new, and a group that is new has a link. -/
structure Grows (t : Tables) (w : Walk) : Prop where
  kept : ∀ g ∈ t.d.groups, ∃ g' ∈ w.d.groups, g'.id = g.id ∧
    ((∀ l ∈ t.links, l.groupId ≠ g.id) → g'.name = g.name)
  origin : ∀ i ∈ w.d.groups.map Group.id,
    i ∈ t.d.groups.map Group.id ∨ i ∈ w.links.map GroupLink.groupId
  linkKey : (w.links.map GroupLink.externalId).Nodup
  groupKey : (w.links.map GroupLink.groupId).Nodup
  refKey : ∀ l ∈ w.links, l.groupId ∈ w.d.groups.map Group.id
  named : ∀ l ∈ w.links, (w.nameOf l.groupId).isSome = true
  held : ∀ l ∈ t.links, ∃ l' ∈ w.links, l'.externalId = l.externalId ∧ l'.groupId = l.groupId
  fresh : ∀ l' ∈ w.links, (∃ l ∈ t.links, l.externalId = l'.externalId ∧ l.groupId = l'.groupId) ∨
    l'.groupId ∉ t.d.groups.map Group.id

lemma nameOf_cons {names : List (Uuid × String)} {group group' : Uuid} {name : String}
    (h : ((names.find? fun n => n.1 == group').map Prod.snd).isSome = true) :
    ((((group, name) :: names).find? fun n => n.1 == group').map Prod.snd).isSome = true := by
  rw [List.find?_cons]
  split
  · rfl
  · exact h

lemma Tables.grows (t : Tables) : Grows t t.start := by
  refine ⟨fun g hg => ⟨g, hg, rfl, fun _ => rfl⟩, fun _ => .inl, t.linkKey, t.groupKey, t.refKey, ?_,
    fun l hl => ⟨l, hl, rfl, rfl⟩, fun l hl => .inl ⟨l, hl, rfl, rfl⟩⟩
  intro l hl
  obtain ⟨g, hg, hid⟩ := List.mem_map.mp (t.refKey l hl)
  have hfound : (t.start.names.find? fun n => n.1 == l.groupId).isSome = true := by
    rw [List.find?_isSome]
    refine ⟨(g.id, g.name), List.mem_map_of_mem (List.mem_filter.mpr ⟨hg, ?_⟩), beq_iff_eq.mpr hid⟩
    rw [hid]
    exact List.contains_iff_mem.mpr (List.mem_map_of_mem hl)
  rw [Walk.nameOf, Option.isSome_map]
  exact hfound

/-- **Renaming** keeps the links and the members, and all rows but that of a link. -/
lemma Grows.rename (h : Grows t w) {link : GroupLink} (hlink : link ∈ w.links) (names : List String) :
    Grows t (rename link.groupId names w).2 ∧ (rename link.groupId names w).2.links = w.links ∧
      (rename link.groupId names w).2.d.members = w.d.members ∧
        (rename link.groupId names w).2.seen = w.seen := by
  induction names with
  | nil => exact ⟨h, rfl, rfl, rfl⟩
  | cons name rest ih =>
      rw [GroupSync.rename]
      split
      · rename_i d hd
        obtain ⟨hmembers, hids, hrows⟩ := updateGroup_ok hd
        refine ⟨⟨?_, ?_, h.linkKey, h.groupKey, ?_, ?_, h.held, h.fresh⟩, rfl, hmembers, rfl⟩
        · intro g hg
          obtain ⟨g', hg', hid, hname⟩ := h.kept g hg
          obtain ⟨g'', hg'', hid', hsame⟩ := hrows g' hg'
          refine ⟨g'', hg'', hid'.trans hid, ?_⟩
          intro hother
          rw [← hname hother, hsame]
          intro heq
          rcases h.fresh link hlink with ⟨l, hl, -, hgroup⟩ | hnew
          · exact hother l hl (hgroup.trans (heq.symm.trans hid))
          · exact hnew (heq ▸ hid ▸ List.mem_map_of_mem hg)
        · show ∀ i ∈ d.groups.map Group.id, _
          rw [hids]
          exact h.origin
        · intro l hl
          show l.groupId ∈ d.groups.map Group.id
          rw [hids]
          exact h.refKey l hl
        · intro l hl
          exact nameOf_cons (h.named l hl)
      · exact ih
      · exact ⟨h, rfl, rfl, rfl⟩

/-- **Creating** a group leaves everything as it was, or adds a row. -/
lemma create_cases (names : List String) (w : Walk) :
    ((∃ n, (create E names w).2 = { w with drawn := n }) ∧ ∀ c, (create E names w).1 ≠ .ok (some c)) ∨
      ∃ row name n d, (create E names w) = (.ok (some (row.id, name)), { w with d := d, drawn := n }) ∧
        row.id ∉ w.d.groups.map Group.id ∧ d.groups = row :: w.d.groups ∧ d.members = w.d.members := by
  induction names generalizing w with
  | nil => exact .inl ⟨⟨w.drawn, rfl⟩, fun c hc => by cases hc⟩
  | cons name rest ih =>
      rw [GroupSync.create]
      split
      · rename_i d hd
        obtain ⟨hmembers, hnew, row, hid, hgroups⟩ := createGroup_ok hd
        rw [← hid] at hnew ⊢
        exact .inr ⟨row, trim name, _, d, rfl, hnew, hgroups, hmembers⟩
      · rcases ih { w with drawn := w.drawn + 1 } with ⟨hsame, hnone⟩ | ⟨row, c, n, d, heq, hrow⟩
        · exact .inl ⟨hsame, hnone⟩
        · exact .inr ⟨row, c, n, d, heq, hrow⟩
      · exact .inl ⟨⟨_, rfl⟩, fun c hc => by cases hc⟩

/-- What `ensure_group` does for an entry: with a group for it there is a link, and without one there
is none, if the entry has an id and a name; only the link of the entry can be new. -/
structure Ensured (E : Env) (t : Tables) (e : Entry) (w : Walk) (r : Except AppError (Option Uuid))
    (w' : Walk) : Prop where
  grows : Grows t w'
  members : w'.d.members = w.d.members
  seen : w'.seen = w.seen
  found : ∀ group, r = .ok (some group) → (groupName E.dir e).isSome = true ∧
    ∃ l ∈ w'.links, e.externalId E.dir = some l.externalId ∧ l.groupId = group
  missed : r = .ok none → (groupName E.dir e).isSome = true →
    ∀ l ∈ w'.links, e.externalId E.dir ≠ some l.externalId
  links : ∀ l ∈ w'.links, (∃ l₀ ∈ w.links, l₀.externalId = l.externalId ∧ l₀.groupId = l.groupId) ∨
    e.externalId E.dir = some l.externalId ∧ r = .ok (some l.groupId)

lemma Walk.link_some {ext : String} {link : GroupLink} (h : w.link ext = some link) :
    link ∈ w.links ∧ link.externalId = ext :=
  ⟨List.mem_of_find?_eq_some h, by simpa using List.find?_some h⟩

lemma Grows.setDn (h : Grows t w) (ext dn : String) : Grows t (w.setDn ext dn) := by
  have hmap : ∀ l : GroupLink,
      (if l.externalId = ext then { l with externalDn := dn } else l).externalId = l.externalId ∧
        (if l.externalId = ext then { l with externalDn := dn } else l).groupId = l.groupId := by
    intro l
    split_ifs <;> exact ⟨rfl, rfl⟩
  have hmem : ∀ l ∈ (w.setDn ext dn).links, ∃ l₀ ∈ w.links, l₀.externalId = l.externalId ∧
      l₀.groupId = l.groupId := by
    intro l hl
    obtain ⟨l₀, hl₀, rfl⟩ := List.mem_map.mp hl
    exact ⟨l₀, hl₀, (hmap l₀).1.symm, (hmap l₀).2.symm⟩
  have hgroups : (w.setDn ext dn).links.map GroupLink.groupId = w.links.map GroupLink.groupId := by
    rw [Walk.setDn, List.map_map]
    exact List.map_congr_left fun l _ => (hmap l).2
  refine ⟨h.kept, hgroups ▸ h.origin, ?_, hgroups ▸ h.groupKey, ?_, ?_, ?_, ?_⟩
  · show ((w.links.map _).map GroupLink.externalId).Nodup
    rw [List.map_map]
    exact (List.map_congr_left fun l _ => (hmap l).1) ▸ h.linkKey
  · intro l hl
    obtain ⟨l₀, hl₀, -, hgroup⟩ := hmem l hl
    exact hgroup ▸ h.refKey l₀ hl₀
  · intro l hl
    obtain ⟨l₀, hl₀, -, hgroup⟩ := hmem l hl
    exact hgroup ▸ h.named l₀ hl₀
  · intro l hl
    obtain ⟨l', hl', hext, hgroup⟩ := h.held l hl
    exact ⟨_, List.mem_map_of_mem hl', (hmap l').1.trans hext, (hmap l').2.trans hgroup⟩
  · intro l hl
    obtain ⟨l₀, hl₀, hext, hgroup⟩ := hmem l hl
    rw [← hext, ← hgroup]
    exact h.fresh l₀ hl₀

lemma keepGroup_ensured (h : Grows t w) {link : GroupLink} {ext name : String} (hlink : w.link ext = some link)
    (hext : e.externalId E.dir = some ext) (hname : groupName E.dir e = some name) :
    Ensured E t e w (keepGroup E link name e w).1 (keepGroup E link name e w).2 := by
  obtain ⟨hmem, rfl⟩ := Walk.link_some hlink
  obtain ⟨current, hcurrent⟩ := Option.isSome_iff_exists.mp (h.named link hmem)
  have hstep : ∀ w' : Walk, Grows t w' → w'.links = w.links → w'.d.members = w.d.members →
      w'.seen = w.seen → Ensured E t e w (.ok (some link.groupId))
        (if eqIgnoreAsciiCase link.externalDn e.dn then w' else w'.setDn link.externalId e.dn) := by
    intro w' hw' hlinks hmembers hseen
    have hmem' : link ∈ w'.links := hlinks ▸ hmem
    split_ifs
    · refine ⟨hw', hmembers, hseen, ?_, ?_, fun l hl => .inl ⟨l, hlinks ▸ hl, rfl, rfl⟩⟩
      · intro group hgroup
        cases hgroup
        exact ⟨by rw [hname]; rfl, link, hmem', hext, rfl⟩
      · intro hnone
        cases hnone
    · refine ⟨hw'.setDn _ _, hmembers, hseen, ?_, ?_, ?_⟩
      · intro group hgroup
        cases hgroup
        refine ⟨by rw [hname]; rfl, _, List.mem_map_of_mem hmem', ?_, ?_⟩
        · rw [if_pos rfl]
          exact hext
        · rw [if_pos rfl]
      · intro hnone
        cases hnone
      · intro l hl
        obtain ⟨l₀, hl₀, rfl⟩ := List.mem_map.mp hl
        refine .inl ⟨l₀, hlinks ▸ hl₀, ?_, ?_⟩
        · split_ifs <;> rfl
        · split_ifs <;> rfl
  rw [keepGroup, hcurrent]
  dsimp only
  by_cases hcond : current ≠ name ∧ current ≠ fallback E.dir name
  · rw [if_pos hcond]
    obtain ⟨hgrows, hlinks, hmembers, hseen⟩ := h.rename hmem [name, fallback E.dir name]
    rcases hr : rename link.groupId [name, fallback E.dir name] w with ⟨x | u, w'⟩
    · rw [hr] at hgrows hlinks hmembers hseen
      refine ⟨hgrows, hmembers, hseen, ?_, ?_, fun l hl => .inl ⟨l, hlinks ▸ hl, rfl, rfl⟩⟩
      · intro group hgroup
        cases hgroup
      · intro hnone
        cases hnone
    · rw [hr] at hgrows hlinks hmembers hseen
      exact hstep w' hgrows hlinks hmembers hseen
  · rw [if_neg hcond]
    exact hstep w h rfl rfl rfl

/-- A group without a link is made, and linked. -/
lemma newGroup_ensured (h : Grows t w) {ext name : String} (hlink : w.link ext = none)
    (hext : e.externalId E.dir = some ext) (hname : groupName E.dir e = some name) :
    Ensured E t e w (newGroup E ext name e w).1 (newGroup E ext name e w).2 := by
  have hnone : ∀ l ∈ w.links, e.externalId E.dir ≠ some l.externalId := by
    intro l hl heq
    rw [hext] at heq
    have hnot := List.find?_eq_none.mp hlink l hl
    rw [Option.some.inj heq] at hnot
    simp at hnot
  rw [newGroup]
  rcases create_cases (E := E) [name, fallback E.dir name] w with
    ⟨⟨n, hsame⟩, hnot⟩ | ⟨row, c, n, d, heq, hnew, hgroups, hmembers⟩
  · have hgrows : Grows t { w with drawn := n } :=
      ⟨h.kept, h.origin, h.linkKey, h.groupKey, h.refKey, h.named, h.held, h.fresh⟩
    rcases hr : create E [name, fallback E.dir name] w with ⟨x | _ | c, w'⟩
    · rw [hr] at hsame
      obtain rfl : w' = { w with drawn := n } := hsame
      refine ⟨hgrows, rfl, rfl, ?_, ?_, fun l hl => .inl ⟨l, hl, rfl, rfl⟩⟩
      · intro group hgroup
        cases hgroup
      · intro hno
        cases hno
    · rw [hr] at hsame
      obtain rfl : w' = { w with drawn := n } := hsame
      refine ⟨hgrows, rfl, rfl, ?_, ?_, fun l hl => .inl ⟨l, hl, rfl, rfl⟩⟩
      · intro group hgroup
        cases hgroup
      · intro _ _ l hl
        exact hnone l hl
    · rw [hr] at hnot
      exact absurd rfl (hnot c)
  · rw [heq]
    dsimp only
    have hgroup : row.id ∉ w.links.map GroupLink.groupId := by
      intro hmem
      obtain ⟨l, hl, hid⟩ := List.mem_map.mp hmem
      exact hnew (hid ▸ h.refKey l hl)
    have hextNew : ext ∉ w.links.map GroupLink.externalId := by
      intro hmem
      obtain ⟨l, hl, hid⟩ := List.mem_map.mp hmem
      exact hnone l hl (hid ▸ hext)
    refine ⟨⟨?_, ?_, ?_, ?_, ?_, ?_, ?_, ?_⟩, hmembers, rfl, ?_, ?_, ?_⟩
    · intro g hg
      obtain ⟨g', hg', hrest⟩ := h.kept g hg
      exact ⟨g', hgroups ▸ List.mem_cons_of_mem _ hg', hrest⟩
    · show ∀ i ∈ d.groups.map Group.id, _
      rw [hgroups, List.map_cons]
      intro i hi
      rcases List.mem_cons.mp hi with rfl | hi
      · exact .inr List.mem_cons_self
      · exact (h.origin i hi).imp_right (List.mem_cons_of_mem _)
    · exact List.nodup_cons.mpr ⟨hextNew, h.linkKey⟩
    · exact List.nodup_cons.mpr ⟨hgroup, h.groupKey⟩
    · intro l hl
      show l.groupId ∈ d.groups.map Group.id
      rw [hgroups, List.map_cons]
      rcases List.mem_cons.mp hl with rfl | hl
      · exact List.mem_cons_self
      · exact List.mem_cons_of_mem _ (h.refKey l hl)
    · intro l hl
      rcases List.mem_cons.mp hl with rfl | hl
      · show ((((row.id, c) :: w.names).find? fun n => n.1 == row.id).map Prod.snd).isSome = true
        rw [List.find?_cons_of_pos (by simp)]
        rfl
      · exact nameOf_cons (h.named l hl)
    · intro l hl
      obtain ⟨l', hl', hrest⟩ := h.held l hl
      exact ⟨l', List.mem_cons_of_mem _ hl', hrest⟩
    · intro l hl
      rcases List.mem_cons.mp hl with rfl | hl
      · refine .inr fun hmem => hnew ?_
        obtain ⟨g, hg, hid⟩ := List.mem_map.mp hmem
        obtain ⟨g', hg', hid', -⟩ := h.kept g hg
        exact List.mem_map.mpr ⟨g', hg', hid'.trans hid⟩
      · exact h.fresh l hl
    · intro group hgroup
      cases hgroup
      exact ⟨by rw [hname]; rfl, _, List.mem_cons_self, hext, rfl⟩
    · intro hno
      cases hno
    · intro l hl
      rcases List.mem_cons.mp hl with rfl | hl
      · exact .inr ⟨hext, rfl⟩
      · exact .inl ⟨l, hl, rfl, rfl⟩

/-- **`ensure_group`**, on any tables. -/
lemma ensureGroup_ensured (h : Grows t w) (e : Entry) :
    Ensured E t e w (ensureGroup E e w).1 (ensureGroup E e w).2 := by
  have hskip : (e.externalId E.dir = none ∨ groupName E.dir e = none) → Ensured E t e w (.ok none) w := by
    intro hnone
    refine ⟨h, rfl, rfl, ?_, ?_, fun l hl => .inl ⟨l, hl, rfl, rfl⟩⟩
    · intro group hgroup
      cases hgroup
    · intro _ hname l _ hext
      rcases hnone with hno | hno
      · rw [hno] at hext
        cases hext
      · rw [hno] at hname
        cases hname
  rw [ensureGroup]
  cases hext : e.externalId E.dir with
  | none => exact hskip (.inl hext)
  | some ext =>
      cases hname : groupName E.dir e with
      | none => exact hskip (.inr hname)
      | some name =>
          dsimp only
          cases hlink : w.link ext with
          | none => exact newGroup_ensured h hlink hext hname
          | some link => exact keepGroup_ensured h hlink hext hname

def Linked (E : Env) (u : Uuid) : Prop := ∃ l ∈ E.userLinks, l.userId = u

/-- **The members set** are those of the directory that are to be; other groups and other users are
left alone. -/
lemma setMembers_ok {group : Uuid} (hgroup : group ∈ w.d.groups.map Group.id) (desired : List Uuid) :
    ∃ d, setMembers E group desired w = (.ok (), { w with d := d }) ∧ d.groups = w.d.groups ∧
      (∀ m : Membership, m.of ≠ group → (m ∈ d.members ↔ m ∈ w.d.members)) ∧
      ∀ u, Linked E u → (⟨group, u⟩ ∈ d.members ↔ u ∈ desired) := by
  have hcurrent : ∀ u, Linked E u →
      (u ∈ directoryMembers E w.d group ↔ (⟨group, u⟩ : Membership) ∈ w.d.members) := by
    rintro u ⟨l, hl, rfl⟩
    rw [directoryMembers, List.mem_filter, List.mem_map]
    constructor
    · rintro ⟨⟨m, hm, hu⟩, -⟩
      obtain ⟨hmem, hof⟩ := List.mem_filter.mp hm
      rw [← hu, ← beq_iff_eq.mp hof]
      exact hmem
    · intro hm
      exact ⟨⟨_, List.mem_filter.mpr ⟨hm, beq_iff_eq.mpr rfl⟩, rfl⟩,
        List.any_eq_true.mpr ⟨l, hl, beq_iff_eq.mpr rfl⟩⟩
  rw [setMembers]
  dsimp only
  rw [dif_pos hgroup]
  refine ⟨_, rfl, rfl, ?_, ?_⟩
  · intro m hm
    rw [List.mem_append, List.mem_filter]
    constructor
    · rintro (hadd | ⟨hmem, -⟩)
      · obtain ⟨u, -, rfl⟩ := List.mem_map.mp hadd
        exact absurd rfl hm
      · exact hmem
    · intro hmem
      refine .inr ⟨hmem, ?_⟩
      simp [hm]
  · intro u hu
    rw [List.mem_append, List.mem_filter]
    constructor
    · rintro (hadd | ⟨hmem, hkept⟩)
      · obtain ⟨u', hu', heq⟩ := List.mem_map.mp hadd
        cases heq
        exact (List.mem_filter.mp (List.mem_dedup.mp hu')).1
      · by_contra hnot
        refine absurd hkept ?_
        have hremove : u ∈ (directoryMembers E w.d group).filter fun u => !desired.contains u :=
          List.mem_filter.mpr ⟨(hcurrent u hu).mpr hmem, by simpa using hnot⟩
        simp only [beq_self_eq_true, Bool.true_and, Bool.not_eq_true', Bool.not_eq_false]
        exact List.contains_iff_mem.mpr hremove
    · intro hdesired
      by_cases hmem : (⟨group, u⟩ : Membership) ∈ w.d.members
      · refine .inr ⟨hmem, ?_⟩
        simp [hdesired]
      · refine .inl (List.mem_map_of_mem (List.mem_dedup.mpr (List.mem_filter.mpr ⟨hdesired, ?_⟩)))
        have hnot : u ∉ directoryMembers E w.d group := fun h => hmem ((hcurrent u hu).mp h)
        simpa using hnot

/-- A group entry that the sync can work with. -/
def Usable (E : Env) (e : Entry) (ext : String) : Prop :=
  e.externalId E.dir = some ext ∧ (groupName E.dir e).isSome = true

/-- What the members of a linked group are to be. -/
def Filled (E : Env) (e : Entry) (d : Roles.Directory) (group : Uuid) : Prop :=
  ∀ values, allMembers E e = .ok values → ∀ u, Linked E u →
    (⟨group, u⟩ ∈ d.members ↔ u ∈ memberUsers E values)

/-- What the body of the loop does for an entry. -/
structure Stepped (E : Env) (t : Tables) (e : Entry) (w : Walk) (r : Except AppError Unit) (w' : Walk) :
    Prop where
  grows : Grows t w'
  seen : ∀ ext ∈ w'.seen, ext ∈ w.seen ∨ Usable E e ext
  sees : ∀ ext ∈ w.seen, ext ∈ w'.seen
  links : ∀ l ∈ w'.links, (∃ l₀ ∈ w.links, l₀.externalId = l.externalId ∧ l₀.groupId = l.groupId) ∨
    e.externalId E.dir = some l.externalId ∧ l.externalId ∈ w'.seen
  others : ∀ l ∈ w'.links, e.externalId E.dir ≠ some l.externalId → ∀ u,
    (⟨l.groupId, u⟩ ∈ w'.d.members ↔ ⟨l.groupId, u⟩ ∈ w.d.members)
  done : r = .ok () → ∀ l ∈ w'.links, Usable E e l.externalId →
    l.externalId ∈ w'.seen ∧ Filled E e w'.d l.groupId

lemma Grows.congr (h : Grows t w) {w' : Walk} (hgroups : w'.d.groups = w.d.groups) (hlinks : w'.links = w.links)
    (hnames : w'.names = w.names) : Grows t w' := by
  refine ⟨?_, ?_, ?_, ?_, ?_, ?_, ?_, ?_⟩
  · rw [hgroups]
    exact h.kept
  · rw [hgroups, hlinks]
    exact h.origin
  · rw [hlinks]
    exact h.linkKey
  · rw [hlinks]
    exact h.groupKey
  · rw [hlinks, hgroups]
    exact h.refKey
  · simp only [hlinks, Walk.nameOf, hnames]
    exact h.named
  · rw [hlinks]
    exact h.held
  · rw [hlinks]
    exact h.fresh

/-- **One turn of the loop.** -/
lemma syncEntry_stepped (h : Grows t w) (e : Entry) :
    Stepped E t e w (syncEntry E e w).1 (syncEntry E e w).2 := by
  have hens := ensureGroup_ensured (E := E) h e
  rw [syncEntry]
  rcases hr : ensureGroup E e w with ⟨x | _ | group, w₁⟩ <;> rw [hr] at hens
  · -- the sync stops
    refine ⟨hens.grows, ?_, ?_, ?_, ?_, ?_⟩
    · intro ext hseen
      exact .inl (hens.seen ▸ hseen)
    · intro ext hseen
      exact hens.seen ▸ hseen
    · intro l hl
      rcases hens.links l hl with hold | ⟨-, hnew⟩
      · exact .inl hold
      · cases hnew
    · intro l _ _ u
      rw [hens.members]
    · intro hok
      cases hok
  · -- there is no group for the entry
    refine ⟨hens.grows, ?_, ?_, ?_, ?_, ?_⟩
    · intro ext hseen
      exact .inl (hens.seen ▸ hseen)
    · intro ext hseen
      exact hens.seen ▸ hseen
    · intro l hl
      rcases hens.links l hl with hold | ⟨-, hnew⟩
      · exact .inl hold
      · cases hnew
    · intro l _ _ u
      rw [hens.members]
    · intro _ l hl husable
      exact absurd husable.1 (hens.missed rfl husable.2 l hl)
  · -- the group is filled
    obtain ⟨hname, l₁, hl₁, hext, hgroup⟩ := hens.found group rfl
    have hseen₁ : w₁.seen = w.seen := hens.seen
    have hlinks : ∀ l ∈ w₁.links, (∃ l₀ ∈ w.links, l₀.externalId = l.externalId ∧ l₀.groupId = l.groupId) ∨
        e.externalId E.dir = some l.externalId ∧ l.externalId ∈ (e.externalId E.dir).toList ++ w₁.seen := by
      intro l hl
      rcases hens.links l hl with hold | ⟨hnew, -⟩
      · exact .inl hold
      · exact .inr ⟨hnew, List.mem_append_left _ (by rw [hnew]; exact List.mem_singleton.mpr rfl)⟩
    have hseen : ∀ ext ∈ (e.externalId E.dir).toList ++ w₁.seen, ext ∈ w.seen ∨ Usable E e ext := by
      intro ext hmem
      rcases List.mem_append.mp hmem with hnew | hold
      · exact .inr ⟨Option.mem_toList.mp hnew, hname⟩
      · exact .inl (hseen₁ ▸ hold)
    have hsees : ∀ ext ∈ w.seen, ext ∈ (e.externalId E.dir).toList ++ w₁.seen := fun ext hmem =>
      List.mem_append_right _ (hseen₁ ▸ hmem)
    dsimp only
    cases hmembers : allMembers E e with
    | error x =>
        refine ⟨hens.grows.congr rfl rfl rfl, hseen, hsees, hlinks, ?_, ?_⟩
        · intro l _ _ u
          show _ ∈ w₁.d.members ↔ _
          rw [hens.members]
        · intro hok
          cases hok
    | ok values =>
        have hid : group ∈ w₁.d.groups.map Group.id := hgroup ▸ hens.grows.refKey l₁ hl₁
        obtain ⟨d, hset, hgroups, hothers, hfilled⟩ := setMembers_ok (E := E)
          (w := { w₁ with seen := (e.externalId E.dir).toList ++ w₁.seen }) hid (memberUsers E values)
        dsimp only
        rw [hset]
        refine ⟨hens.grows.congr hgroups rfl rfl, hseen, hsees, hlinks, ?_, ?_⟩
        · intro l hl hne u
          have hother : l.groupId ≠ group := by
            rintro heq
            obtain rfl := List.inj_on_of_nodup_map hens.grows.groupKey hl hl₁ (heq.trans hgroup.symm)
            exact hne hext
          refine (hothers ⟨l.groupId, u⟩ hother).trans ?_
          show _ ∈ w₁.d.members ↔ _
          rw [hens.members]
        · intro _ l hl husable
          have hsame : l = l₁ := by
            refine List.inj_on_of_nodup_map hens.grows.linkKey hl hl₁ ?_
            exact Option.some.inj (husable.1.symm.trans hext)
          subst hsame
          refine ⟨List.mem_append_left _ (by rw [hext]; exact List.mem_singleton.mpr rfl), ?_⟩
          intro values' hvalues
          rw [hmembers] at hvalues
          cases hvalues
          rw [hgroup]
          exact hfilled

def withId (E : Env) (entries : List Entry) (ext : String) : List Entry :=
  entries.filter fun e => e.externalId E.dir == some ext

/-- **What holds when some entries are done**: what is seen are the ids of usable entries, all of those
that had a link before; a link that was not there is seen; and the groups are filled, as far as the
entry of a group is the only one with its id. -/
structure Inv (E : Env) (t : Tables) (done : List Entry) (w : Walk) : Prop where
  grows : Grows t w
  seenOnly : ∀ ext ∈ w.seen, ∃ e ∈ done, Usable E e ext
  seenAll : ∀ e ∈ done, ∀ ext, Usable E e ext → (∃ l ∈ t.links, l.externalId = ext) → ext ∈ w.seen
  created : ∀ l ∈ w.links, (∃ l₀ ∈ t.links, l₀.externalId = l.externalId ∧ l₀.groupId = l.groupId) ∨
    l.externalId ∈ w.seen
  filled : ∀ e ext, withId E done ext = [e] → Usable E e ext → ∀ l ∈ w.links, l.externalId = ext →
    Filled E e w.d l.groupId

lemma Inv.step {done : List Entry} (h : Inv E t done w) (hstep : Stepped E t e w (.ok ()) w') :
    Inv E t (done ++ [e]) w' := by
  refine ⟨hstep.grows, ?_, ?_, ?_, ?_⟩
  · intro ext hext
    rcases hstep.seen ext hext with hold | hnew
    · obtain ⟨x, hx, husable⟩ := h.seenOnly ext hold
      exact ⟨x, List.mem_append_left _ hx, husable⟩
    · exact ⟨e, List.mem_append_right _ (List.mem_singleton.mpr rfl), hnew⟩
  · intro x hx ext husable hlinked
    rcases List.mem_append.mp hx with hx | hx
    · exact hstep.sees ext (h.seenAll x hx ext husable hlinked)
    · rw [List.mem_singleton.mp hx] at husable
      obtain ⟨l, hl, rfl⟩ := hlinked
      obtain ⟨l', hl', hext, -⟩ := hstep.grows.held l hl
      rw [← hext] at husable ⊢
      exact (hstep.done rfl l' hl' husable).1
  · intro l hl
    rcases hstep.links l hl with ⟨l₀, hl₀, hext, hgroup⟩ | ⟨-, hseen⟩
    · rcases h.created l₀ hl₀ with ⟨l₁, hl₁, hext₁, hgroup₁⟩ | hseen
      · exact .inl ⟨l₁, hl₁, hext₁.trans hext, hgroup₁.trans hgroup⟩
      · exact .inr (hext ▸ hstep.sees _ hseen)
    · exact .inr hseen
  · rintro x ext hone husable l hl rfl
    rw [withId, List.filter_append] at hone
    by_cases he : e.externalId E.dir = some l.externalId
    · -- the entry that is done now is the only one
      have hnew : [e].filter (fun x => x.externalId E.dir == some l.externalId) = [e] := by simp [he]
      rw [hnew] at hone
      obtain ⟨-, hx⟩ := List.append_inj' (hone.trans (List.nil_append [x]).symm) rfl
      obtain rfl : e = x := List.head_eq_of_cons_eq hx
      exact (hstep.done rfl l hl husable).2
    · have hnone : [e].filter (fun x => x.externalId E.dir == some l.externalId) = [] := by simp [he]
      rw [hnone, List.append_nil] at hone
      rcases hstep.links l hl with ⟨l₀, hl₀, hext, hgroup⟩ | ⟨hnew, -⟩
      · have hfilled := h.filled x l.externalId hone husable l₀ hl₀ hext
        intro values hvalues u hu
        rw [hstep.others l hl he u, ← hgroup]
        exact hfilled values hvalues u hu
      · exact absurd hnew he

/-- **The loop over the entries.** -/
lemma syncEntries_inv {done : List Entry} (h : Inv E t done w) (entries : List Entry) :
    Grows t (syncEntries E entries w).2 ∧ ((syncEntries E entries w).1 = .ok () →
      Inv E t (done ++ entries) (syncEntries E entries w).2) := by
  induction entries generalizing done w with
  | nil => exact ⟨h.grows, fun _ => by rw [List.append_nil]; exact h⟩
  | cons e rest ih =>
      have hstep := syncEntry_stepped (E := E) h.grows e
      rw [syncEntries]
      rcases hr : syncEntry E e w with ⟨x | _, w'⟩ <;> rw [hr] at hstep
      · exact ⟨hstep.grows, fun hok => by cases hok⟩
      · have hrest := ih (h.step hstep)
        rw [List.append_assoc] at hrest
        exact hrest

lemma Tables.inv (t : Tables) : Inv E t [] t.start :=
  ⟨t.grows, fun _ h => (List.not_mem_nil h).elim, fun _ h => (List.not_mem_nil h).elim,
    fun l hl => .inl ⟨l, hl, rfl, rfl⟩, fun _ _ h => by cases h⟩

/-- **The sweep** takes the groups of the links that nothing was seen of, with those below them, and
the memberships and the links that go with a group. -/
lemma sweep_spec (ls : List GroupLink) (w : Walk) (href : ∀ l ∈ w.links, l.groupId ∈ w.d.groups.map Group.id) :
    (∀ g, g ∈ (sweep ls w).d.groups ↔ g ∈ w.d.groups ∧
        ∀ l ∈ ls, l.externalId ∉ w.seen → ¬ Under w.d g.id l.groupId) ∧
      (∀ l, l ∈ (sweep ls w).links ↔ l ∈ w.links ∧ l.groupId ∈ (sweep ls w).d.groups.map Group.id) ∧
      ∀ m : Membership, m ∈ (sweep ls w).d.members ↔
        m ∈ w.d.members ∧ m.of ∈ (sweep ls w).d.groups.map Group.id := by
  induction ls generalizing w with
  | nil =>
      refine ⟨fun g => ?_, fun l => ?_, fun m => ?_⟩
      · exact ⟨fun hg => ⟨hg, fun l hl => (List.not_mem_nil hl).elim⟩, fun hg => hg.1⟩
      · exact ⟨fun hl => ⟨hl, href l hl⟩, fun hl => hl.1⟩
      · exact ⟨fun hm => ⟨hm, w.d.memberKey m hm⟩, fun hm => hm.1⟩
  | cons l₀ rest ih =>
      rw [sweep]
      by_cases hseen : w.seen.contains l₀.externalId = true
      · rw [if_pos hseen]
        obtain ⟨hgroups, hlinks, hmembers⟩ := ih w href
        refine ⟨fun g => ?_, hlinks, hmembers⟩
        rw [hgroups, List.forall_mem_cons]
        have hno : l₀.externalId ∉ w.seen → ¬ Under w.d g.id l₀.groupId := fun hnot =>
          absurd (List.contains_iff_mem.mp hseen) hnot
        exact ⟨fun h => ⟨h.1, hno, h.2⟩, fun h => ⟨h.1, h.2.2⟩⟩
      · rw [if_neg hseen]
        have href' : ∀ l ∈ (w.deleteGroup l₀.groupId).links,
            l.groupId ∈ (w.deleteGroup l₀.groupId).d.groups.map Group.id := fun l hl =>
          List.contains_iff_mem.mp (List.mem_filter.mp hl).2
        obtain ⟨hgroups, hlinks, hmembers⟩ := ih (w.deleteGroup l₀.groupId) href'
        have hmem : ∀ g, g ∈ (w.deleteGroup l₀.groupId).d.groups ↔
            g ∈ w.d.groups ∧ ¬ Under w.d g.id l₀.groupId := fun g => mem_deleteGroup
        have hsubset : ∀ i, i ∈ (sweep rest (w.deleteGroup l₀.groupId)).d.groups.map Group.id →
            i ∈ (w.deleteGroup l₀.groupId).d.groups.map Group.id := by
          intro i hi
          obtain ⟨g, hg, rfl⟩ := List.mem_map.mp hi
          exact List.mem_map_of_mem ((hgroups g).mp hg).1
        refine ⟨fun g => ?_, fun l => ?_, fun m => ?_⟩
        · rw [hgroups, hmem, List.forall_mem_cons]
          constructor
          · rintro ⟨⟨hg, hout⟩, hrest⟩
            refine ⟨hg, fun _ => hout, ?_⟩
            intro l hl hnot hunder
            exact hrest l hl hnot ((under_deleteGroup ((hmem g).mpr ⟨hg, hout⟩)).mpr hunder)
          · rintro ⟨hg, hfirst, hrest⟩
            have hout := hfirst fun h => hseen (List.contains_iff_mem.mpr h)
            refine ⟨⟨hg, hout⟩, ?_⟩
            intro l hl hnot hunder
            exact hrest l hl hnot ((under_deleteGroup ((hmem g).mpr ⟨hg, hout⟩)).mp hunder)
        · rw [hlinks]
          constructor
          · rintro ⟨hl, hid⟩
            exact ⟨(List.mem_filter.mp hl).1, hid⟩
          · rintro ⟨hl, hid⟩
            exact ⟨List.mem_filter.mpr ⟨hl, List.contains_iff_mem.mpr (hsubset _ hid)⟩, hid⟩
        · rw [hmembers]
          constructor
          · rintro ⟨hm, hid⟩
            exact ⟨(List.mem_filter.mp hm).1, hid⟩
          · rintro ⟨hm, hid⟩
            exact ⟨List.mem_filter.mpr ⟨hm, List.contains_iff_mem.mpr (hsubset _ hid)⟩, hid⟩

end Steps

/-! ## What the sync is held to -/

def Env.read (E : Env) : List Entry :=
  match E.dir.groupsDn, E.listing with
  | some _, .ok entries => entries
  | _, _ => []

/-- What the entries leave, before anything is deleted. -/
def afterEntries (E : Env) (t : Tables) : Walk := (syncEntries E E.read t.start).2

/-- What a sync is held to. -/
structure Promised (E : Env) (t : Tables) : Prop where
  /-- A group of the directory, one that the sync has created too, is deleted only if no entry that was
  read has its id. -/
  owned : ∀ l ∈ (afterEntries E t).links, l.groupId ∉ (syncGroups E t).2.d.groups.map Group.id →
    ∀ e ∈ E.read, e.externalId E.dir ≠ some l.externalId
  /-- A group that is not the directory's is neither deleted nor renamed. -/
  others : ∀ g ∈ t.d.groups, (∀ l ∈ t.links, l.groupId ≠ g.id) →
    ∃ g' ∈ (syncGroups E t).2.d.groups, g'.id = g.id ∧ g'.name = g.name
  /-- The linked members of a synced group are the linked users that its entry names. -/
  members : (syncGroups E t).1 = .ok () → ∀ e ext, withId E E.read ext = [e] →
    ∀ l ∈ (syncGroups E t).2.links, l.externalId = ext → Filled E e (syncGroups E t).2.d l.groupId

/-- A group of the directory that no entry is worked with for, and every group below it once the
entries are done, is the directory's, and gone from it. -/
def Spared (E : Env) (t : Tables) : Prop :=
  ∀ l ∈ (afterEntries E t).links, (∀ e ∈ E.read, ¬ Usable E e l.externalId) →
    ∀ g ∈ (afterEntries E t).d.groups, Under (afterEntries E t).d g.id l.groupId →
      ∃ l' ∈ (afterEntries E t).links, l'.groupId = g.id ∧
        ∀ e ∈ E.read, e.externalId E.dir ≠ some l'.externalId

section Result

variable {E : Env} {t : Tables} {w : Walk}

lemma promised_of_grows (hw : (syncGroups E t).2 = afterEntries E t) (h : Grows t (afterEntries E t))
    (hmembers : (syncGroups E t).1 = .ok () → E.read = []) : Promised E t := by
  refine ⟨?_, ?_, ?_⟩
  · intro l hl hgone
    rw [hw] at hgone
    exact absurd (h.refKey l hl) hgone
  · intro g hg hother
    obtain ⟨g', hg', hid, hname⟩ := h.kept g hg
    exact ⟨g', hw ▸ hg', hid, hname hother⟩
  · intro hok e ext hone
    rw [hmembers hok] at hone
    cases hone

/-- A link is seen exactly if some entry with its id can be worked with. -/
lemma Inv.seen_iff {done : List Entry} (h : Inv E t done w) {l : GroupLink} (hl : l ∈ w.links) :
    l.externalId ∈ w.seen ↔ ∃ e ∈ done, Usable E e l.externalId := by
  refine ⟨h.seenOnly _, ?_⟩
  rintro ⟨e, he, husable⟩
  rcases h.created l hl with ⟨l₀, hl₀, hext, -⟩ | hseen
  · exact h.seenAll e he _ husable ⟨l₀, hl₀, hext⟩
  · exact hseen

/-- **Which groups are left**: those that are not, and are not below, a group whose link no entry is
worked with for. -/
lemma left_iff (h : Inv E t E.read w) {g : Group} (hg : g ∈ w.d.groups) :
    g.id ∈ (sweep (E.order w.links) w).d.groups.map Group.id ↔
      ∀ l ∈ w.links, (∀ e ∈ E.read, ¬ Usable E e l.externalId) → ¬ Under w.d g.id l.groupId := by
  obtain ⟨hgroups, -, -⟩ := sweep_spec (E.order w.links) w h.grows.refKey
  constructor
  · intro hmem l hl hnone
    obtain ⟨o, ho, hoid⟩ := List.mem_map.mp hmem
    rw [← hoid]
    refine ((hgroups o).mp ho).2 l ((E.order_perm w.links).mem_iff.mpr hl) ?_
    rw [h.seen_iff hl]
    rintro ⟨e, he, husable⟩
    exact hnone e he husable
  · intro hall
    refine List.mem_map_of_mem ((hgroups g).mpr ⟨hg, ?_⟩)
    intro l hl hnot
    have hmem := (E.order_perm w.links).mem_iff.mp hl
    rw [h.seen_iff hmem] at hnot
    exact hall l hmem fun e he husable => hnot ⟨e, he, husable⟩

/-- The sweep is all that can break the promise. -/
lemma promised_iff_spared (hafter : afterEntries E t = w)
    (hw : syncGroups E t = (.ok (), sweep (E.order w.links) w)) (h : Inv E t E.read w) :
    Promised E t ↔ Spared E t := by
  obtain ⟨hgroups, hlinks, hmembers⟩ := sweep_spec (E.order w.links) w h.grows.refKey
  rw [Spared, hafter]
  constructor
  · intro hpromised l hl hnone g hg hunder
    have hgone : g.id ∉ (syncGroups E t).2.d.groups.map Group.id := by
      rw [hw]
      intro hmem
      exact (left_iff h hg).mp hmem l hl hnone hunder
    have hlinked : ∃ l' ∈ w.links, l'.groupId = g.id := by
      rcases h.grows.origin g.id (List.mem_map_of_mem hg) with hold | hnew
      · by_contra hnot
        push Not at hnot
        obtain ⟨g₀, hg₀, hid₀⟩ := List.mem_map.mp hold
        have hother : ∀ l₀ ∈ t.links, l₀.groupId ≠ g₀.id := by
          intro l₀ hl₀ heq
          obtain ⟨l', hl', -, hgroup⟩ := h.grows.held l₀ hl₀
          exact hnot l' hl' (hgroup.trans (heq.trans hid₀))
        obtain ⟨g', hg', hid, -⟩ := hpromised.others g₀ hg₀ hother
        exact hgone (List.mem_map.mpr ⟨g', hg', hid.trans hid₀⟩)
      · exact List.mem_map.mp hnew
    obtain ⟨l', hl', hgroup⟩ := hlinked
    exact ⟨l', hl', hgroup, hpromised.owned l' (hafter ▸ hl') (hgroup ▸ hgone)⟩
  · intro hspared
    -- a group that is gone is the directory's, and gone from it
    have hgone : ∀ g ∈ w.d.groups, g.id ∉ (syncGroups E t).2.d.groups.map Group.id →
        ∃ l' ∈ w.links, l'.groupId = g.id ∧ ∀ e ∈ E.read, e.externalId E.dir ≠ some l'.externalId := by
      intro g hg hnot
      rw [hw, left_iff h hg] at hnot
      push Not at hnot
      obtain ⟨l, hl, hnone, hunder⟩ := hnot
      exact hspared l hl hnone g hg hunder
    refine ⟨?_, ?_, ?_⟩
    · intro l hl hnot
      rw [hafter] at hl
      obtain ⟨g, hg, hid⟩ := List.mem_map.mp (h.grows.refKey l hl)
      obtain ⟨l', hl', hgroup, hnone⟩ := hgone g hg (hid ▸ hnot)
      obtain rfl := List.inj_on_of_nodup_map h.grows.groupKey hl' hl (hgroup.trans hid)
      exact hnone
    · intro g hg hother
      obtain ⟨g', hg', hid, hname⟩ := h.grows.kept g hg
      have hmem : g'.id ∈ (syncGroups E t).2.d.groups.map Group.id := by
        by_contra hnot
        obtain ⟨l', hl', hgroup, -⟩ := hgone g' hg' hnot
        rcases h.grows.fresh l' hl' with ⟨l₀, hl₀, -, hgroup₀⟩ | hnew
        · exact hother l₀ hl₀ (hgroup₀.trans (hgroup.trans hid))
        · exact hnew (hgroup.trans hid ▸ List.mem_map_of_mem hg)
      rw [hw] at hmem ⊢
      obtain ⟨o, ho, hoid⟩ := List.mem_map.mp hmem
      obtain rfl := List.inj_on_of_nodup_map w.d.groupKey ((hgroups o).mp ho).1 hg' hoid
      exact ⟨o, ho, hid, hname hother⟩
    · intro _ e ext hone l hl hext
      rw [hw] at hl ⊢
      obtain ⟨hmem, hleft⟩ := (hlinks l).mp hl
      have hin : ∀ e' ∈ E.read, e'.externalId E.dir = some ext → e' = e := by
        intro e' he' hid
        have hfilter : e' ∈ withId E E.read ext := List.mem_filter.mpr ⟨he', beq_iff_eq.mpr hid⟩
        rw [hone] at hfilter
        exact List.mem_singleton.mp hfilter
      have hseen : l.externalId ∈ w.seen := by
        by_contra hnot
        obtain ⟨g, hg, hid⟩ := List.mem_map.mp hleft
        refine ((hgroups g).mp hg).2 l ((E.order_perm w.links).mem_iff.mpr hmem) hnot ?_
        rw [hid]
        exact ReflTransGen.refl
      obtain ⟨e', he', husable⟩ := h.seenOnly _ hseen
      rw [hext] at husable
      obtain rfl := hin e' he' husable.1
      have hfilled := h.filled e' ext hone husable l hmem hext
      intro values hvalues u hu
      rw [hmembers, ← hfilled values hvalues u hu]
      exact ⟨fun hm => hm.1, fun hm => ⟨hm, hleft⟩⟩

/-- **A sync deletes only what is gone**, and leaves what is not the directory's, exactly if no group
that it takes for gone, and none below such a group, is another's or has an entry after all.  It takes
a group for gone when no entry with its id has a name of at most 200 bytes. -/
theorem sync_deletes_only_gone_iff (E : Env) (t : Tables) :
    Promised E t ↔ (E.read ≠ [] → (syncEntries E E.read t.start).1 = .ok () → Spared E t) := by
  obtain ⟨hgrows, hinv⟩ := syncEntries_inv (t.inv (E := E)) E.read
  rw [List.nil_append] at hinv
  have hnothing : (syncGroups E t).2 = t.start → E.read = [] → (Promised E t ↔ (E.read ≠ [] →
      (syncEntries E E.read t.start).1 = .ok () → Spared E t)) := by
    intro hsync hread
    have hafter : afterEntries E t = t.start := by rw [afterEntries, hread, syncEntries]
    exact iff_of_true (promised_of_grows (hsync.trans hafter.symm) hgrows fun _ => hread)
      fun hne => absurd hread hne
  cases hdn : E.dir.groupsDn with
  | none =>
      refine hnothing ?_ ?_
      · rw [syncGroups, hdn]
      · rw [Env.read, hdn]
  | some dn =>
      cases hlisting : E.listing with
      | error text =>
          refine hnothing ?_ ?_
          · rw [syncGroups, hdn, hlisting]
          · rw [Env.read, hdn, hlisting]
      | ok entries =>
          have hread : E.read = entries := by rw [Env.read, hdn, hlisting]
          have hsync : syncGroups E t = match syncEntries E entries t.start with
              | (.error x, w) => (.error x, w)
              | (.ok _, w) => (.ok (), if entries.isEmpty then w else sweep (E.order w.links) w) := by
            rw [syncGroups, hdn, hlisting]
          have hafter : afterEntries E t = (syncEntries E entries t.start).2 := by rw [afterEntries, hread]
          rw [hread] at hinv
          rcases hr : syncEntries E entries t.start with ⟨x | _, w⟩ <;> rw [hr] at hsync hafter
          · -- the sync stops before it deletes
            rw [hread, hr]
            refine iff_of_true (promised_of_grows ?_ hgrows ?_) fun _ hok => by cases hok
            · rw [hsync, hafter]
            · intro hok
              rw [hsync] at hok
              cases hok
          · rw [hr] at hinv
            dsimp only at hsync
            rw [hread, hr]
            by_cases hempty : entries = []
            · rw [if_pos (by rw [hempty]; rfl)] at hsync
              refine iff_of_true (promised_of_grows ?_ hgrows fun _ => hread.trans hempty)
                fun hne => absurd hempty hne
              rw [hsync, hafter]
            · rw [if_neg (by simpa using hempty)] at hsync
              rw [promised_iff_spared hafter hsync (hread ▸ hinv rfl)]
              exact ⟨fun h _ _ => h, fun h => h hempty rfl⟩

end Result

def sampleTables : Tables where
  d := { Roles.sampleDirectory with
    groups := [⟨1, none, "staff", none, .object []⟩]
    groupKey := by decide
    parentKey := by decide
    memberKey := by decide
    assignedGroupKey := by simp [Roles.sampleDirectory] }
  links := [⟨"g1", 1, "cn=staff"⟩]
  linkKey := by decide
  groupKey := by decide
  refKey := by decide

def namelessEntry : Entry where
  dn := "cn=staff"
  attrs := fun k => if k = "entryuuid" then some ["g1"] else none
  binAttrs := fun _ => none
  keys := ["entryuuid"]

def sampleEnv : Env where
  dir := { aliasName := "corp", displayName := "Corp", uuidAttribute := "entryUUID", groupsDn := some "ou=groups" }
  lower := toAsciiLowercase
  userLinks := []
  draw := fun n => 100 + n
  search := fun _ _ => .ok []
  listing := .ok [namelessEntry]
  order := fun links => links
  order_perm := fun _ => List.Perm.refl _

/-- **A group is deleted that the directory has**, because its name cannot be read. -/
theorem nameless_group_deleted : ¬ Promised sampleEnv sampleTables := by
  intro h
  have hgone : (1 : Uuid) ∉ (syncGroups sampleEnv sampleTables).2.d.groups.map Group.id := by decide +kernel
  have hid : namelessEntry.externalId sampleEnv.dir = some "g1" := by decide +kernel
  exact h.owned ⟨"g1", 1, "cn=staff"⟩ List.mem_cons_self hgone namelessEntry List.mem_cons_self hid

end Ridm.Ldap.GroupSync
