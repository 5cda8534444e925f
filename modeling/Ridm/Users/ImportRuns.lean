import Mathlib.Algebra.Order.BigOperators.Group.Finset
import Ridm.Roles.Escalation
import Ridm.Users.BulkImport

/-!
# What a bulk import does

A run of `importCalls`, whatever the order in which the rows take their transactions.  The rows that
pass the checks share no username and no email, so that whether a row lands is settled by the users
there were before the import, and not by the rows around it: `Inv` says where each row stands, and
`importRuns_stand` that it holds throughout.

From this follows what an import reports and what it leaves behind, and when a dry run says the same
(`dry_run_predicts_iff`).  A dry run does not look at the profile schema, so that a row without a
required attribute passes it and is not imported; nor does it ask whether the build takes the hash of a
row, which is found out when the user is already there.
-/

namespace Ridm.Users.BulkImport

/-! ## When a row lands -/

section

variable (E : Env)

/-- A live user has the row's username as username or the row's email as email. -/
def Clashing (row : ImportRow) (u : User) : Prop :=
  u.live = true ∧ (storedUsername E row = some u.username ∨
    ∃ e, storedEmail E row = some e ∧ u.email = some e)

/-- A live user has the row's username as email or the row's email as username. -/
def Crossing (row : ImportRow) (u : User) : Prop :=
  u.live = true ∧ ((∃ x, storedUsername E row = some x ∧ u.email = some x) ∨
    storedEmail E row = some u.username)

/-- The phone of a row, as it is stored. -/
def storedPhone (row : ImportRow) : Option String :=
  row.phone.bind fun p => (normalizePhone p).toOption

/-- The attributes of the row satisfy the schema, as what the system writes, and the database can hold
the row. -/
def Writable (row : ImportRow) : Prop :=
  ∃ attributes,
    validateAttributesWith E.platform E.schema (row.attributes.getD (.object [])) .system none true =
        .ok attributes ∧
      E.db.holds ((storedUsername E row).getD "") (storedEmail E row) (storedPhone row) row.locale
        attributes = true

/-- The build takes the hash of the row, if there is one, and the database can hold it. -/
def Importable (row : ImportRow) : Prop :=
  ∀ h ∈ row.passwordHash,
    (E.fips = true → E.fipsTransition = true ∨ isApproved h = true) ∧ E.db.holdsText h = true

/-- `create_as` makes a user of the row. -/
def Lands (users : Table) (row : ImportRow) : Prop :=
  Writable E row ∧ ∀ u ∈ users, ¬ Clashing E row u

/-- A user that was made of the row. -/
structure Keys (row : ImportRow) (u : User) : Prop where
  live : u.live = true
  username : storedUsername E row = some u.username
  email : storedEmail E row = u.email
  externalId : u.externalId = none

end

section

variable {E : Env} {users : Table} {row row' : ImportRow} {u r : User} {i : ℕ} {now : Instant}

lemma taken_iff : Taken E users row ↔ ∃ u ∈ users, Clashing E row u ∨ Crossing E row u := by
  simp only [Taken, mem_identifiersOf, User.answersTo, Bool.and_eq_true, Bool.or_eq_true, beq_iff_eq,
    Clashing, Crossing]
  constructor
  · rintro ⟨x, hx | hx, u, hu, hlive, rfl | hmail⟩
    · exact ⟨u, hu, .inl ⟨hlive, .inl hx⟩⟩
    · exact ⟨u, hu, .inr ⟨hlive, .inl ⟨x, hx, hmail⟩⟩⟩
    · exact ⟨u, hu, .inr ⟨hlive, .inr hx⟩⟩
    · exact ⟨u, hu, .inl ⟨hlive, .inr ⟨x, hx, hmail⟩⟩⟩
  · rintro ⟨u, hu, ⟨hlive, hx | ⟨x, hx, hmail⟩⟩ | ⟨hlive, ⟨x, hx, hmail⟩ | hx⟩⟩
    · exact ⟨u.username, .inl hx, u, hu, hlive, .inl rfl⟩
    · exact ⟨x, .inr hx, u, hu, hlive, .inr hmail⟩
    · exact ⟨x, .inl hx, u, hu, hlive, .inr hmail⟩
    · exact ⟨u.username, .inr hx, u, hu, hlive, .inl rfl⟩

lemma Keys.clashes_iff (h : Keys E row u) : clashes r u = true ↔ Clashing E row r := by
  have hmail : sameKey User.email r u = true ↔ ∃ e, storedEmail E row = some e ∧ r.email = some e := by
    rw [sameKey, h.email]
    cases u.email with
    | none => simp
    | some e => simp
  have hname : sameKey (fun x => some x.username) r u = true ↔ storedUsername E row = some r.username := by
    rw [sameKey, h.username, Option.isSome_some, Bool.true_and, beq_iff_eq]
    exact eq_comm
  have hext : sameKey User.externalId r u = false := by simp [sameKey, h.externalId]
  rw [clashes, h.live, hext, Bool.or_false, Bool.and_true, Bool.and_eq_true, Bool.or_eq_true, hname, hmail]
  rfl

lemma Keys.not_clashing (h : Keys E row' r) (hapart : ∀ x ∈ identifiersOf E row, x ∉ identifiersOf E row') :
    ¬ Clashing E row r := by
  rintro ⟨-, hname | ⟨e, he, hmail⟩⟩
  · exact hapart r.username (mem_identifiersOf.mpr (.inl hname)) (mem_identifiersOf.mpr (.inl h.username))
  · exact hapart e (mem_identifiersOf.mpr (.inr he)) (mem_identifiersOf.mpr (.inr (h.email.trans hmail)))

lemma createUser_spec (users : Table) (i : ℕ) (now : Instant) (hvalid : validate E row = .ok ()) :
    (∃ u, createUser E users i now row = .ok (users ++ [u], u) ∧ u.id = E.ids i ∧ Keys E row u ∧
      Writable E row ∧ ∀ r ∈ users, r.id ≠ E.ids i ∧ ¬ Clashing E row r) ∨
    ∃ e, createUser E users i now row = .error e ∧
      (Writable E row → ∃ r ∈ users, r.id = E.ids i ∨ Clashing E row r) := by
  obtain ⟨⟨name, hname, hstored⟩, hemail, phone, hphone⟩ := validate_ok hvalid
  have hphone' : storedPhone row = phone := by
    rw [storedPhone]
    cases hraw : row.phone with
    | none =>
        rw [hraw, normalizeOpt] at hphone
        exact Except.ok.inj hphone
    | some raw =>
        rw [hraw, normalizeOpt_some] at hphone
        obtain ⟨p, hp, rfl⟩ := hphone
        rw [Option.bind_some, hp]
        rfl
  simp only [createUser, createAs, ImportRow.newUser, hname, hemail, hphone, Writable, hstored, hphone',
    Option.getD_some, bind, Except.bind, Bool.not_false]
  cases hattributes : validateAttributesWith E.platform E.schema (row.attributes.getD (.object [])) .system
      none true with
  | error e =>
      refine .inr ⟨e, rfl, ?_⟩
      rintro ⟨_, h, -⟩
      cases h
  | ok attributes =>
      simp only [insert, List.any_nil, Bool.false_eq_true, if_false, Except.ok.injEq, exists_eq_left']
      generalize hu : (User.mk _ _ _ _ _ _ _ _ _ _ _ _ _ _ _ _) = u
      have hkeys : Keys E row u := by
        subst hu
        exact ⟨rfl, hstored, rfl, rfl⟩
      have hid : u.id = E.ids i := by rw [← hu]
      have hany : (users.any fun r => r.id == E.ids i || clashes r u) = true ↔
          ∃ r ∈ users, r.id = E.ids i ∨ Clashing E row r := by
        simp only [List.any_eq_true, Bool.or_eq_true, beq_iff_eq, hkeys.clashes_iff]
      cases hholds : E.db.holds name (storedEmail E row) phone row.locale attributes with
      | false => exact .inr ⟨.database, rfl, fun h => (by cases h)⟩
      | true =>
          by_cases h : ∃ r ∈ users, r.id = E.ids i ∨ Clashing E row r
          · rw [if_pos (hany.mpr h)]
            exact .inr ⟨conflict, rfl, fun _ => h⟩
          · rw [if_neg (mt hany.mp h)]
            refine .inl ⟨u, rfl, hid, hkeys, rfl, fun r hr => ⟨?_, ?_⟩⟩
            · exact fun hrid => h ⟨r, hr, .inl hrid⟩
            · exact fun hclash => h ⟨r, hr, .inr hclash⟩

lemma get_of_live {user : Uuid128} (hu : u ∈ users) (huid : u.id = user)
    (hlive : ∀ r ∈ users, r.id = user → r.live = true) :
    ∃ r ∈ users, get users user = .ok r ∧ r.id = user := by
  cases hfind : users.find? fun r => r.id == user with
  | none => exact absurd (beq_iff_eq.mpr huid) (List.find?_eq_none.mp hfind u hu)
  | some r =>
      have hr := List.mem_of_find?_eq_some hfind
      have hrid : r.id = user := by simpa using List.find?_some hfind
      refine ⟨r, hr, ?_, hrid⟩
      rw [get, findById, hfind, Option.filter_some, if_pos (hlive r hr hrid)]

lemma importHash_spec (now : Instant) {user : Uuid128} {h : String} (hvalid : validate E row = .ok ())
    (hhash : row.passwordHash = some h) (hget : get users user = .ok u) :
    Importable E row ∧ importHash E users user h now = .ok (storePassword users user h false now) ∨
      ¬ Importable E row ∧ ∃ e, importHash E users user h now = .error e := by
  have hknown : (algorithmOf h != "unknown") = true := by
    simp only [validate, bind_eq_ok, require_eq_ok, hhash, Option.all_some] at hvalid
    obtain ⟨-, -, -, -, -, -, -, -, -, -, _, hknown, -⟩ := hvalid
    exact hknown
  have himportable : Importable E row ↔
      (!(E.fips && !E.fipsTransition && !isApproved h)) = true ∧ E.db.holdsText h = true := by
    simp only [Importable, hhash, Option.mem_def, Option.some.injEq, forall_eq']
    refine and_congr_left fun _ => ?_
    cases E.fips <;> cases E.fipsTransition <;> cases isApproved h <;> decide
  rw [himportable, importHash, hknown, hget]
  cases !(E.fips && !E.fipsTransition && !isApproved h) with
  | false => exact .inr ⟨by simp, _, rfl⟩
  | true =>
      cases E.db.holdsText h with
      | false => exact .inr ⟨by simp, _, rfl⟩
      | true => exact .inl ⟨⟨rfl, rfl⟩, rfl⟩

lemma forceChange_ok (now : Instant) {user : Uuid128} (hget : get users user = .ok u)
    (hclash : ∀ r ∈ users, r.id ≠ user →
      clashes r (UserUpdate.apply { mustChangePassword := some true } u now) = false) :
    forceChange E users user now =
      .ok (replaceRow users (UserUpdate.apply { mustChangePassword := some true } u now)) := by
  have hid : (UserUpdate.apply { mustChangePassword := some true } u now).id = user := (get_ok hget).2.1
  have hany : ¬ (users.any fun r =>
      r.id != (UserUpdate.apply { mustChangePassword := some true } u now).id &&
        clashes r (UserUpdate.apply { mustChangePassword := some true } u now)) = true := by
    rw [List.any_eq_true]
    rintro ⟨r, hr, h⟩
    rw [Bool.and_eq_true, bne_iff_ne, hid] at h
    rw [hclash r hr h.1] at h
    cases h.2
  rw [forceChange, updateAs, if_neg (by decide)]
  simp only [normalizePatch, normalizeOpt, normalizeField, hget, validatePatch, askDirectory, bind,
    Except.bind, Option.isSome_none, Bool.or_self, Bool.and_false, Bool.false_eq_true, if_false, update]
  rw [if_neg hany]
  rfl

end

/-! ## Where the rows stand -/

/-- There is a user of the row. -/
def Pc.made : Pc → Bool
  | .created .. | .hashed .. | .granting .. | .imported | .broken _ => true
  | .waiting _ | .refused _ => false

section

variable (E : Env) (s : Store)

/-- The ids of the rows are new. -/
structure Fresh (n : ℕ) : Prop where
  distinct : ∀ i < n, ∀ j < n, E.ids i = E.ids j → i = j
  users : ∀ i < n, ∀ u ∈ s.users, u.id ≠ E.ids i
  assignments : ∀ i < n, ∀ a ∈ s.assignments, a.2 ≠ E.ids i
  members : ∀ i < n, ∀ m ∈ s.members, m.2 ≠ E.ids i

variable (checked : List Checked)

def Passed (i : Fin checked.length) (row : ImportRow) : Prop := (checked.get i).row = .ok row

/-- The rows that passed are well formed, and no two of them share a username or email. -/
structure WellChecked : Prop where
  valid : ∀ {i row}, Passed checked i row → validate E row = .ok ()
  apart : ∀ {i j row row'}, Passed checked i row → Passed checked j row' → i ≠ j →
    ∀ x ∈ identifiersOf E row, x ∉ identifiersOf E row'

/-- What it says that a row stands where it does. -/
def Stands (i : Fin checked.length) : Pc → Prop
  | .waiting row => Passed checked i row
  | .created row user => user = E.ids i ∧ Passed checked i row ∧ Lands E s.users row
  | .hashed row user =>
      user = E.ids i ∧ Passed checked i row ∧ Lands E s.users row ∧ Importable E row
  | .granting roles groups user =>
      user = E.ids i ∧ (∃ row, Passed checked i row ∧ Lands E s.users row ∧ Importable E row) ∧
        (∀ r ∈ roles, (E.roles r).isSome) ∧ ∀ g ∈ groups, (E.groups g).isSome
  | .imported => ∃ row, Passed checked i row ∧ Lands E s.users row ∧ Importable E row
  | .refused _ => ∀ row, Passed checked i row → ¬ Lands E s.users row
  | .broken _ => ∃ row, Passed checked i row ∧ Lands E s.users row ∧ ¬ Importable E row

/-- The import so far: the users there were, one for each row that has one, and what these were given. -/
structure Inv (w : Pool (Fin checked.length) Store Pc) : Prop where
  kept : ∀ u ∈ s.users, u ∈ w.shared.users
  users : ∀ u ∈ w.shared.users, u ∈ s.users ∨
    ∃ i row, Passed checked i row ∧ (w.calls i).made = true ∧ u.id = E.ids i ∧ Keys E row u
  made : ∀ i, (w.calls i).made = true → ∃ u ∈ w.shared.users, u.id = E.ids i
  assignments : ∀ a ∈ w.shared.assignments, a ∈ s.assignments ∨ ∃ i, (w.calls i).made = true ∧ a.2 = E.ids i
  members : ∀ m ∈ w.shared.members, m ∈ s.members ∨ ∃ i, (w.calls i).made = true ∧ m.2 = E.ids i
  stands : ∀ i, Stands E s checked i (w.calls i)

end

namespace Inv

variable {E : Env} {s : Store} {checked : List Checked} {w : Pool (Fin checked.length) Store Pc}
  {i : Fin checked.length} {row : ImportRow} {l : Pc} {g : Store}

lemma made_next (hl : (w.calls i).made = true → l.made = true) {j : Fin checked.length}
    (hj : (w.calls j).made = true) : ((w.next i g l).calls j).made = true := by
  refine Pool.next_forall (w := w) (g := g) (p := fun j l => (w.calls j).made = true → l.made = true) hl
    (fun _ _ => fun h => h) j hj

lemma keys_of_id (h : Inv E s checked w) (hfresh : Fresh E s checked.length) {u : User}
    (hu : u ∈ w.shared.users) (hid : u.id = E.ids i) :
    ∃ row, Passed checked i row ∧ (w.calls i).made = true ∧ Keys E row u := by
  rcases h.users u hu with hold | ⟨j, row, hrow, hmade, huid, hkeys⟩
  · exact absurd hid (hfresh.users i i.isLt u hold)
  · obtain rfl : j = i := Fin.ext (hfresh.distinct j j.isLt i i.isLt (huid.symm.trans hid))
    exact ⟨row, hrow, hmade, hkeys⟩

/-- **A row lands by the users there were.**  The users of the other rows do not clash with it. -/
lemma not_clashing (h : Inv E s checked w) (hchecked : WellChecked E checked) (hrow : Passed checked i row)
    (hlands : ∀ u ∈ s.users, ¬ Clashing E row u) {r : User} (hr : r ∈ w.shared.users)
    (hid : r.id ≠ E.ids i) : ¬ Clashing E row r := by
  rcases h.users r hr with hold | ⟨j, row', hrow', -, hrid, hkeys⟩
  · exact hlands r hold
  · have hji : i ≠ j := by
      rintro rfl
      exact hid hrid
    exact hkeys.not_clashing (hchecked.apart hrow hrow' hji)

lemma get_ok (h : Inv E s checked w) (hfresh : Fresh E s checked.length) (hmade : (w.calls i).made = true)
    (hrow : Passed checked i row) :
    ∃ u ∈ w.shared.users, get w.shared.users (E.ids i) = .ok u ∧ u.id = E.ids i ∧ Keys E row u := by
  obtain ⟨u, hu, hid⟩ := h.made i hmade
  have hkeys : ∀ r ∈ w.shared.users, r.id = E.ids i → Keys E row r := by
    intro r hr hrid
    obtain ⟨row', hrow', -, hkeys⟩ := h.keys_of_id hfresh hr hrid
    cases hrow.symm.trans hrow'
    exact hkeys
  obtain ⟨r, hr, hget, hrid⟩ := get_of_live hu hid fun r hr hrid => (hkeys r hr hrid).live
  exact ⟨r, hr, hget, hrid, hkeys r hr hrid⟩

lemma moved (h : Inv E s checked w) (hl : (w.calls i).made = l.made) (hstands : Stands E s checked i l) :
    Inv E s checked (w.next i w.shared l) where
  kept := h.kept
  users u hu := by
    rcases h.users u hu with hold | ⟨j, row, hrow, hmade, hid, hkeys⟩
    · exact .inl hold
    · exact .inr ⟨j, row, hrow, made_next (fun hi => hl ▸ hi) hmade, hid, hkeys⟩
  made j hj := h.made j (by rwa [Pool.next_congr hl.symm] at hj)
  assignments a ha := (h.assignments a ha).imp_right fun ⟨j, hj, hid⟩ =>
    ⟨j, made_next (fun hi => hl ▸ hi) hj, hid⟩
  members m hm := (h.members m hm).imp_right fun ⟨j, hj, hid⟩ =>
    ⟨j, made_next (fun hi => hl ▸ hi) hj, hid⟩
  stands := Pool.next_forall hstands fun j _ => h.stands j

lemma landed (h : Inv E s checked w) (hwaiting : (w.calls i).made = false) (hrow : Passed checked i row)
    {u : User} (hid : u.id = E.ids i) (hkeys : Keys E row u) (hlands : Lands E s.users row) :
    Inv E s checked
      (w.next i { w.shared with users := w.shared.users ++ [u] } (.created row (E.ids i))) := by
  have hmore : ∀ {j}, (w.calls j).made = true →
      ((w.next i { w.shared with users := w.shared.users ++ [u] } (.created row (E.ids i))).calls j).made =
        true := made_next fun _ => rfl
  refine ⟨fun v hv => List.mem_append_left _ (h.kept v hv), fun v hv => ?_, fun j hj => ?_,
    fun a ha => ?_, fun m hm => ?_, Pool.next_forall ⟨rfl, hrow, hlands⟩ fun j _ => h.stands j⟩
  · rcases List.mem_append.mp hv with hv | hv
    · rcases h.users v hv with hold | ⟨j, row', hrow', hmade, hvid, hkeys'⟩
      · exact .inl hold
      · exact .inr ⟨j, row', hrow', hmore hmade, hvid, hkeys'⟩
    · obtain rfl := List.mem_singleton.mp hv
      exact .inr ⟨i, row, hrow, by rw [Pool.next_self]; rfl, hid, hkeys⟩
  · rcases Pool.next_read (f := Pc.made) hj with ⟨rfl, -⟩ | hj
    · exact ⟨u, List.mem_append_right _ List.mem_cons_self, hid⟩
    · obtain ⟨v, hv, hvid⟩ := h.made j hj
      exact ⟨v, List.mem_append_left _ hv, hvid⟩
  · exact (h.assignments a ha).imp_right fun ⟨j, hj, hid⟩ => ⟨j, hmore hj, hid⟩
  · exact (h.members m hm).imp_right fun ⟨j, hj, hid⟩ => ⟨j, hmore hj, hid⟩

lemma written (h : Inv E s checked w) (hfresh : Fresh E s checked.length) (hmade : (w.calls i).made = true)
    (hrow : Passed checked i row) {f : User → User} (hothers : ∀ r, r.id ≠ E.ids i → f r = r)
    (hown : ∀ r, r.id = E.ids i → Keys E row r → (f r).id = E.ids i ∧ Keys E row (f r))
    (hl : l.made = true) (hstands : Stands E s checked i l) :
    Inv E s checked (w.next i { w.shared with users := w.shared.users.map f } l) := by
  have hsame : (w.calls i).made = l.made := hmade.trans hl.symm
  have hmore : ∀ {j}, (w.calls j).made = true →
      ((w.next i { w.shared with users := w.shared.users.map f } l).calls j).made = true :=
    made_next fun _ => hl
  refine ⟨fun v hv => ?_, fun v hv => ?_, fun j hj => ?_, fun a ha => ?_, fun m hm => ?_,
    Pool.next_forall hstands fun j _ => h.stands j⟩
  · exact List.mem_map.mpr ⟨v, h.kept v hv, hothers v (hfresh.users i i.isLt v hv)⟩
  · obtain ⟨r, hr, rfl⟩ := List.mem_map.mp hv
    by_cases hrid : r.id = E.ids i
    · obtain ⟨row', hrow', -, hkeys⟩ := h.keys_of_id hfresh hr hrid
      cases hrow.symm.trans hrow'
      obtain ⟨hid, hkeys'⟩ := hown r hrid hkeys
      exact .inr ⟨i, row, hrow, hmore hmade, hid, hkeys'⟩
    · rw [hothers r hrid]
      rcases h.users r hr with hold | ⟨j, row', hrow', hj, hid, hkeys⟩
      · exact .inl hold
      · exact .inr ⟨j, row', hrow', hmore hj, hid, hkeys⟩
  · obtain ⟨r, hr, hrid⟩ := h.made j (by rwa [Pool.next_congr hsame.symm] at hj)
    refine ⟨f r, List.mem_map_of_mem hr, ?_⟩
    by_cases hri : r.id = E.ids i
    · obtain ⟨row', hrow', -, hkeys⟩ := h.keys_of_id hfresh hr hri
      cases hrow.symm.trans hrow'
      rw [(hown r hri hkeys).1, ← hri, hrid]
    · rw [hothers r hri, hrid]
  · exact (h.assignments a ha).imp_right fun ⟨j, hj, hid⟩ => ⟨j, hmore hj, hid⟩
  · exact (h.members m hm).imp_right fun ⟨j, hj, hid⟩ => ⟨j, hmore hj, hid⟩

lemma granted (h : Inv E s checked w) (hmade : (w.calls i).made = true)
    {assignments members : List (Uuid × Uuid128)}
    (hassignments : ∀ a ∈ assignments, a ∈ w.shared.assignments ∨ a.2 = E.ids i)
    (hmembers : ∀ m ∈ members, m ∈ w.shared.members ∨ m.2 = E.ids i) (hl : l.made = true)
    (hstands : Stands E s checked i l) :
    Inv E s checked (w.next i ⟨w.shared.users, assignments, members⟩ l) := by
  have hmore : ∀ {j}, (w.calls j).made = true →
      ((w.next i ⟨w.shared.users, assignments, members⟩ l).calls j).made = true := made_next fun _ => hl
  have hmoved := h.moved (hmade.trans hl.symm) hstands
  refine ⟨h.kept, hmoved.users, hmoved.made, fun a ha => ?_, fun m hm => ?_, hmoved.stands⟩
  · rcases hassignments a ha with hold | hid
    · exact (h.assignments a hold).imp_right fun ⟨j, hj, hid⟩ => ⟨j, hmore hj, hid⟩
    · exact .inr ⟨i, hmore hmade, hid⟩
  · rcases hmembers m hm with hold | hid
    · exact (h.members m hold).imp_right fun ⟨j, hj, hid⟩ => ⟨j, hmore hj, hid⟩
    · exact .inr ⟨i, hmore hmade, hid⟩

end Inv

/-! ## Runs -/

section

variable {E : Env} {s : Store} {checked : List Checked} {w w' : Pool (Fin checked.length) Store Pc}
  {i : Fin checked.length} {l : Pc} {g : Store} {k : Draw}

lemma nameMap_mem {entries : List (String × Uuid)} {name : String} {v : Uuid}
    (h : nameMap entries name = some v) : (name, v) ∈ entries := by
  have hmem : ∀ {l : List (String × Uuid)}, l.lookup name = some v → (name, v) ∈ l := by
    intro l
    induction l with
    | nil => exact fun h => by cases h
    | cons e l ih =>
        intro h
        rw [List.lookup_cons] at h
        split at h
        · rename_i heq
          rw [beq_iff_eq] at heq
          cases h
          exact heq ▸ List.mem_cons_self
        · exact List.mem_cons_of_mem _ (ih h)
  exact List.mem_reverse.mp (hmem h)

lemma mem_addRow {rows : List (Uuid × Uuid128)} {row p : Uuid × Uuid128} (h : p ∈ addRow rows row) :
    p ∈ rows ∨ p.2 = row.2 := by
  rw [addRow] at h
  split_ifs at h
  · exact .inl h
  · rcases List.mem_append.mp h with h | h
    · exact .inl h
    · exact .inr (by rw [List.mem_singleton.mp h])

lemma assign_ok {role : String} {user : Uuid128} {u : User} (hknown : (E.roles role).isSome)
    (hget : get g.users user = .ok u) :
    ∃ r, assign E g role user = .ok { g with assignments := addRow g.assignments (r, user) } := by
  obtain ⟨r, hr⟩ := Option.isSome_iff_exists.mp hknown
  refine ⟨r, ?_⟩
  simp only [assign, hr, orError, E.roleListKey _ (nameMap_mem hr), require, hget, bind, Except.bind,
    if_true]

lemma addMember_ok {group : String} {user : Uuid128} {u : User} (hknown : (E.groups group).isSome)
    (hget : get g.users user = .ok u) :
    ∃ x, addMember E g group user = .ok { g with members := addRow g.members (x, user) } := by
  obtain ⟨x, hx⟩ := Option.isSome_iff_exists.mp hknown
  have hfound : (E.directory.findGroup x).isSome = true := by
    obtain ⟨y, hy, heq⟩ := List.mem_map.mp (nameMap_mem hx)
    rw [Roles.Directory.findGroup, List.find?_isSome]
    refine ⟨y, (List.mem_insertionSort _).mp hy, ?_⟩
    rw [beq_iff_eq]
    exact congrArg Prod.snd heq
  refine ⟨x, ?_⟩
  simp only [addMember, hx, orError, hfound, require, hget, bind, Except.bind, if_true]

lemma Inv.stored (h : Inv E s checked w) (hfresh : Fresh E s checked.length)
    (hmade : (w.calls i).made = true) {row : ImportRow} (hrow : Passed checked i row) (hash : String)
    (mustChange : Bool) (now : Instant) (hl : l.made = true) (hstands : Stands E s checked i l) :
    Inv E s checked (w.next i
      { w.shared with users := storePassword w.shared.users (E.ids i) hash mustChange now } l) := by
  refine h.written hfresh hmade hrow (fun r hr => ?_) (fun r hr hkeys => ?_) hl hstands
  · exact if_neg fun hboth => hr hboth.1
  · split_ifs with hboth
    · exact ⟨hr, hkeys.live, hkeys.username, hkeys.email, hkeys.externalId⟩
    · exact ⟨hr, hkeys⟩

lemma importable_none {row : ImportRow} (h : row.passwordHash = none) : Importable E row := by
  intro x hx
  rw [h] at hx
  cases hx

lemma created_inv (hfresh : Fresh E s checked.length) (hchecked : WellChecked E checked)
    (h : Inv E s checked w) {row : ImportRow} (hpc : w.calls i = .created row (E.ids i))
    (hrow : Passed checked i row) (hlands : Lands E s.users row)
    (hact : act E i w.shared k (.created row (E.ids i)) = some (g, l)) :
    Inv E s checked (w.next i g l) := by
  have hmade : (w.calls i).made = true := by rw [hpc]; rfl
  have hvalid := hchecked.valid hrow
  obtain ⟨u, hu, hget, hid, hkeys⟩ := h.get_ok hfresh hmade hrow
  have hgranting : Importable E row → Stands E s checked i (.granting row.roles row.groups (E.ids i)) :=
    fun himportable => ⟨rfl, ⟨row, hrow, hlands, himportable⟩, validate_names hvalid⟩
  rw [act] at hact
  cases hhash : row.passwordHash with
  | some x =>
      rw [hhash] at hact
      rcases importHash_spec k.now hvalid hhash hget with ⟨himportable, hok⟩ | ⟨hnot, e, herror⟩
      · simp only [hok, Except.map, goOn] at hact
        cases hact
        refine h.stored hfresh hmade hrow x false k.now ?_ ?_
        · split_ifs <;> rfl
        · split_ifs
          · exact ⟨rfl, hrow, hlands, himportable⟩
          · exact hgranting himportable
      · simp only [herror, Except.map, goOn] at hact
        cases hact
        exact h.moved hmade ⟨row, hrow, hlands, hnot⟩
  | none =>
      rw [hhash] at hact
      have hstands := hgranting (importable_none hhash)
      cases hpassword : row.password with
      | some p =>
          simp only [hpassword, setPassword, hget, bind, Except.bind, Except.map, goOn] at hact
          cases hact
          exact h.stored hfresh hmade hrow _ _ _ rfl hstands
      | none =>
          rw [hpassword] at hact
          cases hact
          exact h.moved hmade hstands

lemma hashed_inv (hfresh : Fresh E s checked.length) (hchecked : WellChecked E checked)
    (h : Inv E s checked w) {row : ImportRow} (hpc : w.calls i = .hashed row (E.ids i))
    (hrow : Passed checked i row) (hlands : Lands E s.users row) (himportable : Importable E row)
    (hact : act E i w.shared k (.hashed row (E.ids i)) = some (g, l)) :
    Inv E s checked (w.next i g l) := by
  have hmade : (w.calls i).made = true := by rw [hpc]; rfl
  obtain ⟨u, hu, hget, hid, hkeys⟩ := h.get_ok hfresh hmade hrow
  have hkeys' : Keys E row (UserUpdate.apply { mustChangePassword := some true } u k.now) :=
    ⟨hkeys.live, hkeys.username, hkeys.email, hkeys.externalId⟩
  have hid' : (UserUpdate.apply { mustChangePassword := some true } u k.now).id = E.ids i := hid
  have hforced := forceChange_ok (E := E) k.now hget fun r hr hrid => by
    rw [← Bool.not_eq_true, hkeys'.clashes_iff]
    exact h.not_clashing hchecked hrow hlands.2 hr hrid
  simp only [act, hforced, Except.map, goOn] at hact
  cases hact
  refine h.written hfresh hmade hrow (fun r hr => ?_) (fun r hr _ => ?_) rfl
    ⟨rfl, ⟨row, hrow, hlands, himportable⟩, validate_names (hchecked.valid hrow)⟩
  · exact if_neg fun heq => hr (heq.trans hid')
  · rw [if_pos (hr.trans hid'.symm)]
    exact ⟨hid', hkeys'⟩

lemma granting_inv (hfresh : Fresh E s checked.length) (h : Inv E s checked w) {roles groups : List String}
    (hpc : w.calls i = .granting roles groups (E.ids i))
    (hlanded : ∃ row, Passed checked i row ∧ Lands E s.users row ∧ Importable E row)
    (hroles : ∀ r ∈ roles, (E.roles r).isSome) (hgroups : ∀ x ∈ groups, (E.groups x).isSome)
    (hact : act E i w.shared k (.granting roles groups (E.ids i)) = some (g, l)) :
    Inv E s checked (w.next i g l) := by
  have hmade : (w.calls i).made = true := by rw [hpc]; rfl
  obtain ⟨row, hrow, -⟩ := id hlanded
  obtain ⟨u, -, hget, -, -⟩ := h.get_ok hfresh hmade hrow
  cases roles with
  | cons r roles =>
      obtain ⟨x, hok⟩ := assign_ok (hroles r List.mem_cons_self) hget
      simp only [act, hok, goOn] at hact
      cases hact
      exact h.granted hmade (fun a ha => mem_addRow ha) (fun m hm => .inl hm) rfl
        ⟨rfl, hlanded, fun r' hr' => hroles r' (List.mem_cons_of_mem _ hr'), hgroups⟩
  | nil =>
      cases groups with
      | cons x groups =>
          obtain ⟨y, hok⟩ := addMember_ok (hgroups x List.mem_cons_self) hget
          simp only [act, hok, goOn] at hact
          cases hact
          exact h.granted hmade (fun a ha => .inl ha) (fun m hm => mem_addRow hm) rfl
            ⟨rfl, hlanded, hroles, fun y' hy' => hgroups y' (List.mem_cons_of_mem _ hy')⟩
      | nil =>
          cases hact
          exact h.moved hmade hlanded

/-- **Step.**  Whatever row takes its next transaction. -/
lemma act_inv (hfresh : Fresh E s checked.length) (hchecked : WellChecked E checked)
    (h : Inv E s checked w) (hact : act E i w.shared k (w.calls i) = some (g, l)) :
    Inv E s checked (w.next i g l) := by
  have hstands := h.stands i
  cases hpc : w.calls i with
  | waiting row =>
      rw [hpc] at hact hstands
      have hwaiting : (w.calls i).made = false := by rw [hpc]; rfl
      rw [act] at hact
      rcases createUser_spec w.shared.users i k.now
        (hchecked.valid hstands) with ⟨u, hok, hid, hkeys, hwritable, hnone⟩ | ⟨e, herror, hnone⟩
      · rw [hok] at hact
        cases hact
        rw [hid]
        exact h.landed hwaiting hstands hid hkeys ⟨hwritable, fun v hv => (hnone v (h.kept v hv)).2⟩
      · rw [herror] at hact
        cases hact
        refine h.moved hwaiting fun row' hrow' hlands => ?_
        cases hstands.symm.trans hrow'
        obtain ⟨r, hr, hbad⟩ := hnone hlands.1
        have hrid : r.id ≠ E.ids i := by
          intro hrid
          obtain ⟨-, -, hmade, -⟩ := h.keys_of_id hfresh hr hrid
          rw [hwaiting] at hmade
          cases hmade
        exact h.not_clashing hchecked hstands hlands.2 hr hrid (hbad.resolve_left hrid)
  | created row user =>
      rw [hpc] at hact hstands
      obtain ⟨rfl, hrow, hlands⟩ := hstands
      exact created_inv hfresh hchecked h hpc hrow hlands hact
  | hashed row user =>
      rw [hpc] at hact hstands
      obtain ⟨rfl, hrow, hlands, himportable⟩ := hstands
      exact hashed_inv hfresh hchecked h hpc hrow hlands himportable hact
  | granting roles groups user =>
      rw [hpc] at hact hstands
      obtain ⟨rfl, hlanded, hroles, hgroups⟩ := hstands
      exact granting_inv hfresh h hpc hlanded hroles hgroups hact
  | imported =>
      rw [hpc] at hact
      cases hact
  | refused e =>
      rw [hpc] at hact
      cases hact
  | broken e =>
      rw [hpc] at hact
      cases hact

lemma start_inv : Inv E s checked (start checked s) where
  kept _ hu := hu
  users _ hu := .inl hu
  made i hi := by
    change (checked.get i).start.made = true at hi
    rw [Checked.start] at hi
    cases hrow : (checked.get i).row with
    | ok row =>
        rw [hrow] at hi
        cases hi
    | error e =>
        rw [hrow] at hi
        cases hi
  assignments _ ha := .inl ha
  members _ hm := .inl hm
  stands i := by
    change Stands E s checked i (checked.get i).start
    rw [Checked.start]
    cases hrow : (checked.get i).row with
    | ok row => exact hrow
    | error e => exact fun row hok => by cases hrow.symm.trans hok

/-- **Run.**  In every order of the transactions, each row stands where the users that were there first
put it. -/
theorem importRuns_stand (hfresh : Fresh E s checked.length) (hchecked : WellChecked E checked)
    {as : List (Pick (Fin checked.length) Draw Empty)}
    (hrun : (importCalls E checked.length).machine.run (start checked s) as = some w) :
    Inv E s checked w := by
  refine Calls.run_inv (C := fun _ _ => True) ?_ ?_ (Machine.meets_of_forall (fun _ _ => trivial) _ _) hrun
    start_inv
  · intro w i k g l h _ hact
    exact act_inv hfresh hchecked h hact
  · intro w e
    exact e.elim

lemma wellChecked (E : Env) (rows : List ImportRow) : WellChecked E (checkAll E rows) where
  valid hrow := (checkRows_passed (List.get_mem _ _) hrow).1
  apart {i j row row'} hrow hrow' hij x hx hx' := by
    have hpairs := List.pairwise_iff_get.mp (checkRows_pairwise E 0 [] rows)
    rcases lt_or_gt_of_ne hij with hlt | hlt
    · exact hpairs i j hlt row row' hrow hrow' x hx hx'
    · exact hpairs j i hlt row' row hrow' hrow x hx' hx

end

/-! ## An import comes to its end -/

section

variable {E : Env}

/-- The transactions a row has before it, at most. -/
def Pc.ahead : Pc → ℕ
  | .waiting row => row.roles.length + row.groups.length + 4
  | .created row _ => row.roles.length + row.groups.length + 3
  | .hashed row _ => row.roles.length + row.groups.length + 2
  | .granting roles groups _ => roles.length + groups.length + 1
  | .imported | .refused _ | .broken _ => 0

lemma goOn_ahead {g : Store} {next : Pc} {r : Except AppError Store} {n : ℕ} (hnext : next.ahead < n) :
    (goOn g next r).2.ahead < n := by
  cases r with
  | ok g' => exact hnext
  | error e => exact Nat.lt_of_le_of_lt (Nat.zero_le _) hnext

lemma act_ahead (i : ℕ) (g : Store) (k : Draw) {pc : Pc} (hpc : pc.finished = false) :
    ∃ r, act E i g k pc = some r ∧ r.2.ahead < pc.ahead := by
  cases pc with
  | waiting row =>
      rw [act]
      cases createUser E g.users i k.now row with
      | ok p => exact ⟨_, rfl, by simp [Pc.ahead]⟩
      | error e => exact ⟨_, rfl, by simp [Pc.ahead]⟩
  | created row user =>
      rw [act]
      cases row.passwordHash with
      | some h =>
          refine ⟨_, rfl, goOn_ahead ?_⟩
          split_ifs <;> simp [Pc.ahead]
      | none =>
          cases row.password with
          | some p => exact ⟨_, rfl, goOn_ahead (by simp [Pc.ahead])⟩
          | none => exact ⟨_, rfl, by simp [Pc.ahead]⟩
  | hashed row user => exact ⟨_, rfl, goOn_ahead (by simp [Pc.ahead])⟩
  | granting roles groups user =>
      cases roles with
      | cons r roles => exact ⟨_, rfl, goOn_ahead (by simp only [Pc.ahead, List.length_cons]; omega)⟩
      | nil =>
          cases groups with
          | cons x groups => exact ⟨_, rfl, goOn_ahead (by simp [Pc.ahead])⟩
          | nil => exact ⟨_, rfl, by simp [Pc.ahead]⟩
  | imported => cases hpc
  | refused e => cases hpc
  | broken e => cases hpc

/-- **Every import comes to its end**, whatever its rows have done so far. -/
theorem exists_finished {n : ℕ} (w : Pool (Fin n) Store Pc) :
    ∃ as w', (importCalls E n).machine.run w as = some w' ∧ ∀ i, (w'.calls i).finished = true := by
  induction hm : ∑ i, (w.calls i).ahead using Nat.strong_induction_on generalizing w with
  | _ m ih =>
      by_cases hall : ∀ i, (w.calls i).finished = true
      · exact ⟨[], w, rfl, hall⟩
      · push Not at hall
        obtain ⟨i, hi⟩ := hall
        obtain ⟨r, hact, hless⟩ := act_ahead (E := E) i w.shared {} (by simpa using hi)
        have hsum : ∑ j, ((w.next i r.1 r.2).calls j).ahead < m := by
          rw [← hm]
          refine Finset.sum_lt_sum (fun j _ => ?_) ⟨i, Finset.mem_univ i, by rwa [Pool.next_self]⟩
          by_cases hji : j = i
          · rw [hji, Pool.next_self]
            exact hless.le
          · rw [Pool.next_of_ne w hji]
        obtain ⟨as, w', hrun, hdone⟩ := ih _ hsum (w.next i r.1 r.2) rfl
        exact ⟨.call i {} :: as, w',
          Machine.run_cons.mpr ⟨_, Calls.step_call.mpr ⟨r.1, r.2, hact, rfl⟩, hrun⟩, hdone⟩

end

/-! ## What is left, and what is reported -/

section

variable {E : Env} {s : Store} {checked : List Checked} {w : Pool (Fin checked.length) Store Pc}
  {i : Fin checked.length}

/-- No user has the id, with no password, no assignment and no group. -/
def LeavesNothing (g : Store) (user : Uuid128) : Prop :=
  (∀ u ∈ g.users, u.id ≠ user) ∧ (∀ a ∈ g.assignments, a.2 ≠ user) ∧ ∀ m ∈ g.members, m.2 ≠ user

lemma Inv.leavesNothing_iff (h : Inv E s checked w) (hfresh : Fresh E s checked.length) :
    LeavesNothing w.shared (E.ids i) ↔ (w.calls i).made = false := by
  have hsame : ∀ j : Fin checked.length, (w.calls j).made = true → E.ids j = E.ids i →
      (w.calls i).made = true := by
    intro j hj hid
    rwa [Fin.ext (hfresh.distinct j j.isLt i i.isLt hid)] at hj
  constructor
  · intro hnone
    rw [← Bool.not_eq_true]
    intro hmade
    obtain ⟨u, hu, hid⟩ := h.made i hmade
    exact hnone.1 u hu hid
  · intro hmade
    rw [← Bool.not_eq_true] at hmade
    refine ⟨fun u hu hid => ?_, fun a ha hid => ?_, fun m hm hid => ?_⟩
    · obtain ⟨-, -, hi, -⟩ := h.keys_of_id hfresh hu hid
      exact hmade hi
    · rcases h.assignments a ha with hold | ⟨j, hj, haj⟩
      · exact hfresh.assignments i i.isLt a hold hid
      · exact hmade (hsame j hj (haj.symm.trans hid))
    · rcases h.members m hm with hold | ⟨j, hj, hmj⟩
      · exact hfresh.members i i.isLt m hold hid
      · exact hmade (hsame j hj (hmj.symm.trans hid))

/-- **What an import reports**: the rows that do not land, and those with a hash the build does not
take. -/
lemma Inv.reported_iff (h : Inv E s checked w) (hdone : ∀ i, (w.calls i).finished = true) :
    (i : ℕ) + 1 ∈ (realReport w).failedRows ↔
      ∀ row, Passed checked i row → ¬ (Lands E s.users row ∧ Importable E row) := by
  have hreport : (i : ℕ) + 1 ∈ (realReport w).failedRows ↔ ∃ e, (w.calls i).outcome = .error e := by
    rw [realReport, mem_failedRows (by simp)]
    constructor
    · rintro ⟨j, e, hj, hij⟩
      obtain rfl : (i : ℕ) = j := by omega
      refine ⟨e, ?_⟩
      simpa using hj
    · rintro ⟨e, he⟩
      refine ⟨i, e, ?_, rfl⟩
      simpa using he
  rw [hreport]
  have hstands := h.stands i
  have hfinished := hdone i
  cases hpc : w.calls i with
  | imported =>
      rw [hpc] at hstands
      obtain ⟨row, hrow, hboth⟩ := hstands
      exact iff_of_false (by simp [Pc.outcome]) fun hall => hall row hrow hboth
  | refused e =>
      rw [hpc] at hstands
      exact iff_of_true ⟨e, rfl⟩ fun row hrow hboth => hstands row hrow hboth.1
  | broken e =>
      rw [hpc] at hstands
      obtain ⟨row, hrow, -, hnot⟩ := hstands
      refine iff_of_true ⟨e, rfl⟩ fun row' hrow' hboth => ?_
      cases hrow.symm.trans hrow'
      exact hnot hboth.2
  | waiting row => simp [hpc, Pc.finished] at hfinished
  | created row user => simp [hpc, Pc.finished] at hfinished
  | hashed row user => simp [hpc, Pc.finished] at hfinished
  | granting roles groups user => simp [hpc, Pc.finished] at hfinished

/-- **What an import leaves behind**: the users of the rows that land. -/
lemma Inv.leaves_iff (h : Inv E s checked w) (hfresh : Fresh E s checked.length)
    (hdone : ∀ i, (w.calls i).finished = true) :
    LeavesNothing w.shared (E.ids i) ↔ ∀ row, Passed checked i row → ¬ Lands E s.users row := by
  rw [h.leavesNothing_iff hfresh]
  have hstands := h.stands i
  have hfinished := hdone i
  cases hpc : w.calls i with
  | imported =>
      rw [hpc] at hstands
      obtain ⟨row, hrow, hlands, -⟩ := hstands
      exact iff_of_false (by simp [Pc.made]) fun hall => hall row hrow hlands
  | refused e =>
      rw [hpc] at hstands
      exact iff_of_true rfl hstands
  | broken e =>
      rw [hpc] at hstands
      obtain ⟨row, hrow, hlands, -⟩ := hstands
      exact iff_of_false (by simp [Pc.made]) fun hall => hall row hrow hlands
  | waiting row => simp [hpc, Pc.finished] at hfinished
  | created row user => simp [hpc, Pc.finished] at hfinished
  | hashed row user => simp [hpc, Pc.finished] at hfinished
  | granting roles groups user => simp [hpc, Pc.finished] at hfinished

end

/-! ## When a dry run says the same -/

/-- The dry run and the import report the same rows, and a reported row has left nothing. -/
def Foretold (E : Env) (s : Store) (rows : List ImportRow)
    (w : Pool (Fin (checkAll E rows).length) Store Pc) : Prop :=
  (∀ n, n ∈ (dryRun E s.users rows).failedRows ↔ n ∈ (realReport w).failedRows) ∧
    ∀ i : Fin (checkAll E rows).length,
      (i : ℕ) + 1 ∈ (realReport w).failedRows → LeavesNothing w.shared (E.ids i)

/-- A row that clashes with nobody can be written exactly when it crosses nobody, and if it can, the
build takes its hash. -/
def Predictable (E : Env) (users : Table) (row : ImportRow) : Prop :=
  (∀ u ∈ users, ¬ Clashing E row u) →
    (Writable E row ↔ ∀ u ∈ users, ¬ Crossing E row u) ∧ (Writable E row → Importable E row)

lemma predictable_iff {E : Env} {users : Table} {row : ImportRow} : Predictable E users row ↔
    (Taken E users row ↔ ¬ (Lands E users row ∧ Importable E row)) ∧
      (¬ (Lands E users row ∧ Importable E row) → ¬ Lands E users row) := by
  have htaken : Taken E users row ↔
      ¬ (∀ u ∈ users, ¬ Clashing E row u) ∨ ¬ ∀ u ∈ users, ¬ Crossing E row u := by
    rw [taken_iff]
    push Not
    rw [← exists_or]
    exact exists_congr fun u => and_or_left
  rw [htaken, Predictable, Lands]
  generalize (∀ u ∈ users, ¬ Clashing E row u) = apart, (∀ u ∈ users, ¬ Crossing E row u) = straight,
    Writable E row = writable, Importable E row = importable
  by_cases hapart : apart
  · by_cases hwritable : writable
    · simp only [hapart, hwritable]
      tauto
    · simp only [hapart, hwritable]
      tauto
  · simp only [hapart]
    tauto

/-- **When a dry run predicts the import.**  Whatever order the rows run in, exactly when every row that
passes the checks and clashes with no user is one that can be written if and only if it crosses no user,
and then has no hash that the build refuses. -/
theorem dry_run_predicts_iff (E : Env) (s : Store) (rows : List ImportRow)
    (hfresh : Fresh E s rows.length) {as : List (Pick (Fin (checkAll E rows).length) Draw Empty)}
    {w : Pool (Fin (checkAll E rows).length) Store Pc}
    (hrun : (importCalls E (checkAll E rows).length).machine.run (start (checkAll E rows) s) as = some w)
    (hdone : ∀ i, (w.calls i).finished = true) :
    Foretold E s rows w ↔
      ∀ c ∈ checkAll E rows, ∀ row, c.row = .ok row → Predictable E s.users row := by
  rw [← length_checkAll (E := E)] at hfresh
  have h := importRuns_stand hfresh (wellChecked E rows) hrun
  have hdry : ∀ i : Fin (checkAll E rows).length, (i : ℕ) + 1 ∈ (dryRun E s.users rows).failedRows ↔
      ∀ row, Passed (checkAll E rows) i row → Taken E s.users row := by
    intro i
    rw [dryRun_fails]
    constructor
    · rintro ⟨j, hj, c, hc, hall⟩
      obtain rfl : (i : ℕ) = j := by omega
      rw [List.getElem?_eq_getElem i.isLt, Option.some.injEq] at hc
      subst hc
      exact hall
    · intro hall
      exact ⟨i, rfl, _, List.getElem?_eq_getElem i.isLt, hall⟩
  have hnumbers : (∀ n, n ∈ (dryRun E s.users rows).failedRows ↔ n ∈ (realReport w).failedRows) ↔
      ∀ i : Fin (checkAll E rows).length,
        (i : ℕ) + 1 ∈ (dryRun E s.users rows).failedRows ↔ (i : ℕ) + 1 ∈ (realReport w).failedRows := by
    refine ⟨fun hall i => hall _, fun hall n => ⟨fun hn => ?_, fun hn => ?_⟩⟩
    · obtain ⟨i, rfl, c, hc, -⟩ := dryRun_fails.mp hn
      exact (hall ⟨i, (List.getElem?_eq_some_iff.mp hc).1⟩).mp hn
    · rw [realReport, mem_failedRows (by simp)] at hn
      obtain ⟨i, e, hi, rfl⟩ := hn
      have hlt : i < (checkAll E rows).length := by simpa using (List.getElem?_eq_some_iff.mp hi).1
      refine (hall ⟨i, hlt⟩).mpr ?_
      rw [realReport, mem_failedRows (by simp)]
      exact ⟨i, e, hi, rfl⟩
  rw [Foretold, hnumbers, ← forall_and, List.forall_mem_iff_get]
  refine forall_congr' fun i => ?_
  rw [hdry, h.reported_iff hdone, h.leaves_iff hfresh hdone]
  cases hrow : (checkAll E rows).get i |>.row with
  | error e =>
      have hnone : ∀ row, ¬ Passed (checkAll E rows) i row := fun row hok => by cases hrow.symm.trans hok
      simp [hnone]
  | ok row =>
      have honly : ∀ row', Passed (checkAll E rows) i row' ↔ row' = row := by
        intro row'
        rw [Passed, hrow, Except.ok.injEq, eq_comm]
      simp only [honly, forall_eq, Except.ok.injEq, forall_eq']
      exact predictable_iff.symm

/-! ### A tenant -/

def bareDirectory : Roles.Directory where
  tenantId := 1
  users := []
  groups := []
  members := []
  roles := .empty []
  builtInRoles := []
  assignments := []
  servers := [⟨5, Roles.ADMIN_AUDIENCE, true⟩]
  permissions := []
  grants := []
  organizations := []
  orgMembers := []
  groupKey := Roles.sampleDirectory.groupKey
  parentKey := Roles.sampleDirectory.parentKey
  memberKey := Roles.sampleDirectory.memberKey
  assignedGroupKey := by simp
  assignedRoleKey := by decide
  serverKey := Roles.sampleDirectory.serverKey
  permissionKey := by decide
  adminServer := Roles.sampleDirectory.adminServer
  adminBuiltIn := Roles.sampleDirectory.adminBuiltIn

def sampleEnv (required : Bool) : Env where
  platform := samplePlatform
  classes := ⟨Char.isUpper, Char.isLower, Char.isAlphanum⟩
  db := ⟨fun t => !t.toList.contains (Char.ofNat 0), fun _ => true, toAsciiLowercase⟩
  schema := ⟨[{ name := "department", required := required }], false⟩
  rules := {}
  directory := bareDirectory
  roleList := []
  roleListKey := by simp
  canGrant _ := .ok ()
  fips := false
  fipsTransition := false
  hash p _ := p
  asks _ _ := .ok ()
  ids i := BitVec.ofNat 128 (i + 1)

def sampleRows : List ImportRow := [{ username := "alice" }]

def noUsers : Store := ⟨[], [], []⟩

def firstRow (required : Bool) (n : ℕ) :
    List (Pick (Fin (checkAll (sampleEnv required) sampleRows).length) Draw Empty) :=
  List.replicate n (.call ⟨0, by rw [length_checkAll]; decide⟩ {})

def allFinished {n : ℕ} (w : Pool (Fin n) Store Pc) : Bool := decide (∀ i, (w.calls i).finished = true)

def twoRows : List ImportRow := [{ username := "alice" }, { username := "bob" }]

def oneUser : Store := ⟨[{ id := 99, username := "alice", createdAt := 0, updatedAt := 0 }], [], []⟩

def inTurn : List (Pick (Fin (checkAll (sampleEnv false) twoRows).length) Draw Empty) :=
  .call ⟨0, by rw [length_checkAll]; decide⟩ {} ::
    List.replicate 3 (.call ⟨1, by rw [length_checkAll]; decide⟩ {})

lemma predictable_rows : ∀ c ∈ checkAll (sampleEnv false) twoRows, ∀ row, c.row = .ok row →
    Predictable (sampleEnv false) oneUser.users row := by
  have hchecked : checkAll (sampleEnv false) twoRows = twoRows.map fun r => ⟨some r.username, .ok r⟩ := rfl
  rw [hchecked]
  intro c hc row hrow
  obtain ⟨r, hr, rfl⟩ := List.mem_map.mp hc
  cases hrow
  rcases List.mem_pair.mp hr with rfl | rfl
  · -- the name is taken
    intro hapart
    exact absurd ⟨rfl, .inl (by decide +kernel)⟩ (hapart _ List.mem_cons_self)
  · intro _
    refine ⟨iff_of_true ⟨.object [], by decide +kernel, by decide +kernel⟩ ?_,
      fun _ _ h => absurd h (Option.not_mem_none _)⟩
    rintro u hu ⟨-, ⟨x, -, hx⟩ | hname⟩
    · rw [List.mem_singleton.mp hu] at hx
      cases hx
    · cases (show (none : Option String) = some u.username from hname)

/-- Of a tenant with `alice`, and with no attribute required, the dry run says which of two rows fails. -/
theorem dry_run_predicts_iff_optional :
    ∃ w, (importCalls (sampleEnv false) _).machine.run (start (checkAll (sampleEnv false) twoRows) oneUser)
        inTurn = some w ∧
      (realReport w).failedRows = [1] ∧ Foretold (sampleEnv false) oneUser twoRows w := by
  obtain ⟨w, hrun, hw⟩ := Machine.exists_run_of_any
    (show ((importCalls (sampleEnv false) _).machine.run
      (start (checkAll (sampleEnv false) twoRows) oneUser) inTurn).any (fun w =>
        allFinished w && (realReport w).failedRows == [1]) = true by decide +kernel)
  rw [Bool.and_eq_true, allFinished, decide_eq_true_eq, beq_iff_eq] at hw
  have hfresh : Fresh (sampleEnv false) oneUser twoRows.length :=
    ⟨by decide, by decide, by decide, by decide⟩
  exact ⟨w, hrun, hw.2, (dry_run_predicts_iff _ _ _ hfresh hrun hw.1).mpr predictable_rows⟩

/-- **A row that passes the dry run is not imported.**  The tenant requires a department of its users. -/
theorem dry_run_misses_required :
    ∃ w, (importCalls (sampleEnv true) _).machine.run (start (checkAll (sampleEnv true) sampleRows) noUsers)
        (firstRow true 1) = some w ∧
      Fresh (sampleEnv true) noUsers sampleRows.length ∧ (∀ i, (w.calls i).finished = true) ∧
      (dryRun (sampleEnv true) [] sampleRows).failedRows = [] ∧ (realReport w).failedRows = [1] ∧
      ¬ Foretold (sampleEnv true) noUsers sampleRows w := by
  obtain ⟨w, hrun, hw⟩ := Machine.exists_run_of_any
    (show ((importCalls (sampleEnv true) _).machine.run
      (start (checkAll (sampleEnv true) sampleRows) noUsers) (firstRow true 1)).any (fun w =>
        allFinished w && (realReport w).failedRows == [1]) = true by decide +kernel)
  rw [Bool.and_eq_true, allFinished, decide_eq_true_eq, beq_iff_eq] at hw
  have hdry : (dryRun (sampleEnv true) [] sampleRows).failedRows = [] := by decide +kernel
  refine ⟨w, hrun, ⟨by decide, by decide, by decide, by decide⟩, hw.1, hdry, hw.2, fun h => ?_⟩
  have hone := (h.1 1).mpr (by rw [hw.2]; decide)
  rw [show noUsers.users = [] from rfl, hdry] at hone
  cases hone

end Ridm.Users.BulkImport
