import Ridm.Lib.Interleaving
import Ridm.Users.MailedSecrets

/-!
# What a mailed link proves

A link or code that comes back proves that its address reaches the user.  The records name the user
only, and whoever redeems one gets the address marked that the user has *then*: an email changed in
between is marked as verified though nothing was ever sent to it.

`redeemed_was_mailed_to` is what holds: as long as an email is only changed when nothing that was
mailed to the user is outstanding, except to the new address, every redemption that marks an email
redeems something mailed to it.  `stale_link_verifies` is a run without that care.
-/

namespace Ridm.Users

/-! ## Runs -/

/-- The calls of a run.  What is looked up by an identifier is given by its id as well. -/
inductive MailCall
  | sendVerification (id : Uuid128) (flowId : Option Uuid) (token : String)
  | requestPasswordReset (identifier : String) (id : Uuid128) (token : String)
  | sendPasswordless (method : Method) (identifier : String) (id : Uuid128) (flowId : Uuid)
      (secret : String)
  | updateAs (byTheSystem : Bool) (editor : Editor) (id : Uuid128) (patch : UserUpdate)
  | confirm (token : String)
  | completePasswordReset (token : String) (outcome : PasswordOutcome)
  | passwordlessVerify (method : Method) (flowId : Uuid) (secret : String)

section Calls

variable (P : Platform) (hash : Hash) (schema : ProfileSchema) (directory : Directory)

/-- The calls that redeem something. -/
def redemption (m : Mailroom) (now : Instant) : MailCall → Option Redemption
  | .confirm token => some (confirm hash m now token)
  | .completePasswordReset token outcome => some (completePasswordReset hash m now token outcome)
  | .passwordlessVerify method flowId secret =>
      some (passwordlessVerifyStep P hash schema directory m now method flowId secret)
  | _ => none

/-- The user with an id, when it is found by an identifier. -/
def lookedUp (m : Mailroom) (identifier : String) (id : Uuid128) : Option User :=
  (get m.rows id).toOption.filter (foundBy P m identifier)

/-- What a call leaves. -/
def MailCall.apply (m : Mailroom) (now : Instant) (call : MailCall) : Mailroom :=
  match call with
  | .sendVerification id flowId token =>
      match get m.rows id with
      | .ok user =>
          match Users.sendVerification hash m now user flowId token with
          | .ok m' => m'
          | .error _ => m
      | .error _ => m
  | .requestPasswordReset identifier id token =>
      match lookedUp P m identifier id with
      | some user => Users.requestPasswordReset hash m now user token
      | none => m
  | .sendPasswordless method identifier id flowId secret =>
      match lookedUp P m identifier id with
      | some user => Users.sendPasswordless hash m now method flowId user secret
      | none => m
  | .updateAs byTheSystem editor id patch =>
      match Users.updateAs P schema directory m.rows now byTheSystem editor id patch with
      | .ok (rows, _) => { m with rows := rows }
      | .error _ => m
  | call =>
      match redemption P hash schema directory m now call with
      | some r => r.2
      | none => m

/-- The mailroom at a time. -/
structure MailWorld where
  clock : Instant
  room : Mailroom

/-- Calls one after another, each at its time. -/
def mailMachine : Machine MailWorld (Instant × MailCall) where
  step w c :=
    if w.clock ≤ c.1 then some ⟨c.1, c.2.apply P hash schema directory w.room c.1⟩ else none

/-- The keys of what goes out by mail. -/
def SecretKey.mailed : SecretKey → Bool
  | .flowOtp _ .sms => false
  | _ => true

/-- An email is changed only when what was mailed to the user, and can still be redeemed, went to the
new address. -/
def NothingOutstanding (w : MailWorld) (c : Instant × MailCall) : Prop :=
  match c.2 with
  | .updateAs byTheSystem editor id patch =>
      ∀ before rows after, get w.room.rows id = .ok before →
        updateAs P schema directory w.room.rows c.1 byTheSystem editor id patch = .ok (rows, after) →
        after.email ≠ before.email →
        ∀ e ∈ w.room.secrets, e.1.mailed = true → c.1 < e.2.ends → e.2.record.userId = id →
          after.email = some e.2.sentTo
  | _ => True

end Calls

/-! ## Rows -/

section Rows

variable {rows rows' : Table} {id : Uuid128} {u v before after : User}

lemma get_eq_ok : get rows id = .ok v ↔ findById rows id = some v ∧ v.live = true := by
  rw [get, ← Option.filter_eq_some_iff]
  cases (findById rows id).filter User.live <;> simp

lemma get_replaceRow (h : get (replaceRow rows u) id = .ok v) :
    (id = u.id ∧ v = u) ∨ (id ≠ u.id ∧ get rows id = .ok v) := by
  obtain ⟨hfind, hlive⟩ := get_eq_ok.mp h
  rw [findById, replaceRow, List.find?_map, Option.map_eq_some_iff] at hfind
  obtain ⟨r, hr, rfl⟩ := hfind
  have hrid : (if r.id = u.id then u else r).id = id := by simpa using List.find?_some hr
  by_cases hid : id = u.id
  · refine .inl ⟨hid, ?_⟩
    split_ifs at hrid ⊢ with hru
    · rfl
    · exact absurd (hrid.trans hid) hru
  · refine .inr ⟨hid, get_eq_ok.mpr ⟨?_, hlive⟩⟩
    have hsame : ((fun r : User => r.id == id) ∘ fun r => if r.id = u.id then u else r) =
        fun r => r.id == id := by
      funext x
      simp only [Function.comp_apply]
      split_ifs with hx
      · rw [Bool.eq_iff_iff, beq_iff_eq, beq_iff_eq]
        exact ⟨fun h => absurd h.symm hid, fun h => absurd (h.symm.trans hx) hid⟩
      · rfl
    rw [hsame] at hr
    split_ifs with hru
    · rw [if_pos hru] at hrid
      exact absurd hrid.symm hid
    · exact hr

/-- Every user has the email it had. -/
def KeepsEmails (rows rows' : Table) : Prop :=
  ∀ id v, get rows' id = .ok v → ∃ u, get rows id = .ok u ∧ v.email = u.email

lemma KeepsEmails.refl (rows : Table) : KeepsEmails rows rows := fun _ v h => ⟨v, h, rfl⟩

lemma KeepsEmails.trans {rows'' : Table} (h : KeepsEmails rows rows') (h' : KeepsEmails rows' rows'') :
    KeepsEmails rows rows'' := by
  intro id v hv
  obtain ⟨u, hu, heq⟩ := h' id v hv
  obtain ⟨u', hu', heq'⟩ := h id u hu
  exact ⟨u', hu', heq.trans heq'⟩

lemma keepsEmails_replaceRow (hbefore : get rows u.id = .ok before) (hemail : u.email = before.email) :
    KeepsEmails rows (replaceRow rows u) := by
  intro id v hv
  rcases get_replaceRow hv with ⟨rfl, rfl⟩ | ⟨-, hv⟩
  · exact ⟨before, hbefore, hemail⟩
  · exact ⟨v, hv, rfl⟩

lemma update_keepsEmails {p : UserUpdate} {now : Instant} (hbefore : get rows before.id = .ok u)
    (hemail : before.email = u.email) (hp : p.email = none)
    (h : update rows before p now = .ok (rows', after)) :
    KeepsEmails rows rows' ∧ after.email = before.email := by
  simp only [update] at h
  split_ifs at h
  cases h
  have hkept : (p.apply before now).email = before.email := by simp [UserUpdate.apply, hp]
  exact ⟨keepsEmails_replaceRow (u := p.apply before now) hbefore (hkept.trans hemail), hkept⟩

variable {user : User} {patch : UserUpdate} {byTheSystem : Bool} {editor : Editor}

lemma updateAs_leaves {P : Platform} {schema : ProfileSchema} {directory : Directory} {now : Instant}
    (h : updateAs P schema directory rows now byTheSystem editor id patch = .ok (rows', after)) :
    ∃ before, get rows id = .ok before ∧ (patch.email = none → after.email = before.email) ∧
      (rows' = rows ∧ after = before ∨ rows' = replaceRow rows after ∧ after.id = before.id) := by
  rw [updateAs] at h
  split_ifs at h with hempty
  · cases hget : get rows id with
    | error e =>
        rw [hget] at h
        cases h
    | ok u =>
        rw [hget] at h
        cases h
        exact ⟨_, rfl, fun _ => rfl, .inl ⟨rfl, rfl⟩⟩
  · simp only [bind_eq_ok] at h
    obtain ⟨patch', hpatch', before, hbefore, patch'', hpatch'', -, -, h⟩ := h
    refine ⟨before, hbefore, fun hemail => ?_, ?_⟩
    · obtain ⟨-, hnorm, -, -⟩ := normalizePatch_ok hpatch'
      rw [hemail] at hnorm
      have hp : patch''.email = none := by
        rw [validatePatch_ok hpatch'']
        exact (Except.ok.inj hnorm).symm
      simp only [update] at h
      split_ifs at h
      cases h
      simp [UserUpdate.apply, hp]
    · simp only [update] at h
      split_ifs at h
      cases h
      exact .inr ⟨rfl, rfl⟩

lemma updateAs_keepsEmails {P : Platform} {schema : ProfileSchema} {directory : Directory}
    {now : Instant} (hp : patch.email = none)
    (h : updateAs P schema directory rows now byTheSystem editor id patch = .ok (rows', after)) :
    KeepsEmails rows rows' := by
  obtain ⟨before, hbefore, hemail, ⟨rfl, -⟩ | ⟨rfl, hid⟩⟩ := updateAs_leaves h
  · exact KeepsEmails.refl _
  · refine keepsEmails_replaceRow ?_ (hemail hp)
    rw [hid, (get_ok hbefore).2.1]
    exact hbefore

end Rows

/-! ## What is outstanding -/

/-- What was mailed to users and can still be redeemed went to the email the user has. -/
def Addressed (clock : Instant) (m : Mailroom) : Prop :=
  ∀ e ∈ m.secrets, e.1.mailed = true → clock < e.2.ends →
    ∀ u, get m.rows e.2.record.userId = .ok u → u.email = some e.2.sentTo

section Outstanding

variable {m m' : Mailroom} {now clock : Instant} {key : SecretKey} {s : Secret}

lemma mem_of_find (h : m.find key now = some s) : (key, s) ∈ m.secrets ∧ now < s.ends := by
  rw [Mailroom.find, Option.map_eq_some_iff] at h
  obtain ⟨⟨k, s'⟩, hfind, rfl⟩ := h
  have hpos := List.find?_some hfind
  simp only [Bool.and_eq_true, beq_iff_eq, decide_eq_true_eq] at hpos
  obtain ⟨rfl, hlt⟩ := hpos
  exact ⟨List.mem_of_find?_eq_some hfind, hlt⟩

/-- What stays true of what is outstanding: emails are kept, and each secret was there before, to the same
user and address, or goes to the user's email. -/
lemma Addressed.step (h : Addressed clock m) (hrows : KeepsEmails m.rows m'.rows)
    (hsecrets : ∀ e ∈ m'.secrets, e.1.mailed = true → now < e.2.ends →
      (∃ e₀ ∈ m.secrets, e₀.1.mailed = true ∧ clock < e₀.2.ends ∧
        e₀.2.record.userId = e.2.record.userId ∧ e₀.2.sentTo = e.2.sentTo) ∨
      ∃ u, get m.rows e.2.record.userId = .ok u ∧ u.email = some e.2.sentTo) :
    Addressed now m' := by
  intro e he hmailed hlt v hv
  obtain ⟨u, hu, heq⟩ := hrows _ _ hv
  rw [heq]
  rcases hsecrets e he hmailed hlt with ⟨e₀, he₀, hmailed₀, hlt₀, huser, hto⟩ | ⟨u', hu', hto⟩
  · rw [← hto]
    exact h e₀ he₀ hmailed₀ hlt₀ u (by rw [huser]; exact hu)
  · rw [hu] at hu'
    cases hu'
    exact hto

/-- What a redemption does: it leaves the emails and the other secrets alone, and what it marks an email
verified for is a mailed secret of that user which was not over. -/
structure Redeems (m : Mailroom) (now : Instant) (r : Redemption) : Prop where
  emails : KeepsEmails m.rows r.2.rows
  secrets : ∀ e ∈ r.2.secrets, ∃ e₀ ∈ m.secrets, e₀.1 = e.1 ∧ (now < e.2.ends → now < e₀.2.ends) ∧
    e₀.2.record.userId = e.2.record.userId ∧ e₀.2.sentTo = e.2.sentTo
  marked : ∀ done, r.1 = .ok (some done) → done.marked = .email →
    ∃ e ∈ m.secrets, e.1.mailed = true ∧ now < e.2.ends ∧
      ∃ u, get m.rows e.2.record.userId = .ok u ∧ done.user.email = u.email ∧ e.2.sentTo = done.sentTo

lemma redeems_nothing {r : Redemption} (hdone : ∀ done, r.1 ≠ .ok (some done))
    (hemails : KeepsEmails m.rows r.2.rows) (hsecrets : ∀ e ∈ r.2.secrets, e ∈ m.secrets) :
    Redeems m now r :=
  ⟨hemails, fun e he => ⟨e, hsecrets e he, rfl, id, rfl, rfl⟩, fun done h => absurd h (hdone done)⟩

lemma mem_del {e : SecretKey × Secret} (he : e ∈ (m.del key).secrets) : e ∈ m.secrets :=
  (List.mem_filter.mp he).1

lemma confirm_redeems (hash : Hash) (token : String) : Redeems m now (confirm hash m now token) := by
  rw [confirm]
  split_ifs with htoken
  · split
    · rename_i userId flowId ends sentTo hfind
      obtain ⟨hmem, hlt⟩ := mem_of_find hfind
      simp only
      cases hget : get (m.del (.emailVerification (hash token))).rows userId with
      | error e => exact redeems_nothing (by simp) (KeepsEmails.refl _) fun _ => mem_del
      | ok user =>
          simp only
          split
          · exact redeems_nothing (by simp) (KeepsEmails.refl _) fun _ => mem_del
          · rename_i rows after hupdate
            have hrow : get m.rows user.id = .ok user := (get_ok hget).2.1 ▸ hget
            obtain ⟨hemails, hafter⟩ := update_keepsEmails hrow rfl rfl hupdate
            refine ⟨hemails, fun e he => ⟨e, mem_del he, rfl, id, rfl, rfl⟩, ?_⟩
            rintro done hdone -
            cases hdone
            exact ⟨_, hmem, rfl, hlt, user, hget, hafter, rfl⟩
    · exact redeems_nothing (by simp) (KeepsEmails.refl _) fun _ => id
  · exact redeems_nothing (by simp) (KeepsEmails.refl _) fun _ => id

lemma setPassword_keepsEmails {rows rows' : Table} {userId : Uuid128} {outcome : PasswordOutcome}
    (h : setPassword rows userId now outcome = .ok rows') : KeepsEmails rows rows' := by
  cases outcome with
  | refused e => cases h
  | inDirectory =>
      cases h
      exact KeepsEmails.refl _
  | kept hash =>
      rw [setPassword] at h
      cases hget : get rows userId with
      | error e =>
          rw [hget] at h
          cases h
      | ok user =>
          rw [hget] at h
          cases h
          have hrow : get rows user.id = .ok user := (get_ok hget).2.1 ▸ hget
          exact keepsEmails_replaceRow (u := { user with
            passwordHash := some hash, mustChangePassword := false, updatedAt := now }) hrow rfl

lemma completePasswordReset_redeems (hash : Hash) (token : String) (outcome : PasswordOutcome) :
    Redeems m now (completePasswordReset hash m now token outcome) := by
  rw [completePasswordReset]
  split_ifs with htoken
  · split
    · rename_i userId ends sentTo hfind
      obtain ⟨hmem, hlt⟩ := mem_of_find hfind
      cases hset : setPassword m.rows userId now outcome with
      | error e => exact redeems_nothing (by simp) (KeepsEmails.refl _) fun _ => id
      | ok rows =>
          have hrows := setPassword_keepsEmails hset
          simp only
          cases hget : get ({ m with rows := rows }.del (.passwordReset (hash token))).rows userId with
          | error e => exact redeems_nothing (by simp) hrows fun _ => mem_del
          | ok user =>
              simp only
              split
              · exact redeems_nothing (by simp) hrows fun _ => mem_del
              · rename_i rows' after hupdate
                have hrow : get rows (unlocked user now).id = .ok user := (get_ok hget).2.1 ▸ hget
                obtain ⟨hemails, hafter⟩ := update_keepsEmails hrow rfl rfl hupdate
                refine ⟨hrows.trans hemails, fun e he => ⟨e, mem_del he, rfl, id, rfl, rfl⟩, ?_⟩
                rintro done hdone -
                cases hdone
                obtain ⟨u, hu, heq⟩ := hrows _ _ hget
                exact ⟨_, hmem, rfl, hlt, u, hu, hafter.trans heq, rfl⟩
    · exact redeems_nothing (by simp) (KeepsEmails.refl _) fun _ => id
  · exact redeems_nothing (by simp) (KeepsEmails.refl _) fun _ => id

/-- What looking a secret up does: it leaves the rows alone, every secret left was there before, to the
same user and address, and the secret it found was not over. -/
structure LooksUp (m : Mailroom) (now : Instant) (mailed : Bool)
    (r : Option (Uuid128 × String) × Mailroom) : Prop where
  rows : r.2.rows = m.rows
  secrets : ∀ e ∈ r.2.secrets, ∃ e₀ ∈ m.secrets, e₀.1 = e.1 ∧ (now < e.2.ends → now < e₀.2.ends) ∧
    e₀.2.record.userId = e.2.record.userId ∧ e₀.2.sentTo = e.2.sentTo
  found : ∀ userId sentTo, r.1 = some (userId, sentTo) → ∃ e ∈ m.secrets, e.1.mailed = mailed ∧
    now < e.2.ends ∧ e.2.record.userId = userId ∧ e.2.sentTo = sentTo

lemma LooksUp.del {mailed : Bool} {found : Option (Uuid128 × String)}
    (hfound : ∀ userId sentTo, found = some (userId, sentTo) → ∃ e ∈ m.secrets, e.1.mailed = mailed ∧
      now < e.2.ends ∧ e.2.record.userId = userId ∧ e.2.sentTo = sentTo) :
    LooksUp m now mailed (found, m.del key) :=
  ⟨rfl, fun e he => ⟨e, mem_del he, rfl, id, rfl, rfl⟩, hfound⟩

lemma LooksUp.nothing {mailed : Bool} : LooksUp m now mailed (none, m) :=
  ⟨rfl, fun e he => ⟨e, he, rfl, id, rfl, rfl⟩, by simp⟩

lemma verifyMagicLink_looksUp (hash : Hash) (flowId : Uuid) (token : String) :
    LooksUp m now true (verifyMagicLink hash m now flowId token) := by
  rw [verifyMagicLink]
  split_ifs with htoken
  · split
    · rename_i recFlowId userId expiresAt ends sentTo hfind
      obtain ⟨hmem, hlt⟩ := mem_of_find hfind
      refine LooksUp.del fun userId' sentTo' h => ?_
      split_ifs at h
      cases h
      exact ⟨_, hmem, rfl, hlt, rfl, rfl⟩
    · exact LooksUp.del (by simp)
    · exact LooksUp.nothing
  · exact LooksUp.nothing

lemma checkCode_looksUp (hash : Hash) (key : SecretKey) (code : String) :
    LooksUp m now key.mailed (checkCode hash m now key code) := by
  rw [checkCode]
  split
  · rename_i userId codeHash attempts expiresAt ends sentTo hfind
    obtain ⟨hmem, hlt⟩ := mem_of_find hfind
    split_ifs with hover hright hspent
    · exact LooksUp.del (by simp)
    · refine LooksUp.del fun userId' sentTo' h => ?_
      cases h
      exact ⟨_, hmem, rfl, hlt, rfl, rfl⟩
    · exact LooksUp.del (by simp)
    · refine ⟨rfl, fun e he => ?_, by simp⟩
      rcases List.mem_cons.mp he with rfl | he
      · exact ⟨_, hmem, rfl, fun _ => hlt, rfl, rfl⟩
      · exact ⟨e, (List.mem_filter.mp he).1, rfl, id, rfl, rfl⟩
  · exact LooksUp.nothing

lemma verifySecret_looksUp (hash : Hash) (method : Method) (flowId : Uuid) (secret : String) :
    LooksUp m now (decide (method.channel = .email)) (verifySecret hash m now method flowId secret) := by
  cases method with
  | magicLink => exact verifyMagicLink_looksUp hash flowId secret
  | emailOtp => exact checkCode_looksUp hash (.flowOtp flowId .email) secret
  | smsOtp => exact checkCode_looksUp hash (.flowOtp flowId .sms) secret

lemma passwordlessVerifyStep_redeems (P : Platform) (hash : Hash) (schema : ProfileSchema)
    (directory : Directory) (method : Method) (flowId : Uuid) (secret : String) :
    Redeems m now (passwordlessVerifyStep P hash schema directory m now method flowId secret) := by
  have hlook : LooksUp m now (decide (method.channel = .email))
      (verifySecret hash m now method flowId secret) := verifySecret_looksUp hash method flowId secret
  have hsame : KeepsEmails m.rows (verifySecret hash m now method flowId secret).2.rows := by
    rw [hlook.rows]
    exact KeepsEmails.refl _
  have hnothing : ∀ {outcome : Except AppError (Option Redeemed)}, (∀ done, outcome ≠ .ok (some done)) →
      Redeems m now (outcome, (verifySecret hash m now method flowId secret).2) := fun hout =>
    ⟨hsame, hlook.secrets, fun done h => absurd h (hout done)⟩
  rw [passwordlessVerifyStep]
  simp only
  split
  · exact hnothing (by simp)
  · rename_i userId sentTo hfound
    obtain ⟨e, he, hmailed, hlt, huser, hto⟩ := hlook.found userId sentTo hfound
    split
    · exact hnothing (by simp)
    · rename_i user hget
      split_ifs with hstatus
      · split
        · exact hnothing (by simp)
        · rename_i rows after hupdate
          rw [hlook.rows] at hget hupdate
          obtain ⟨before, hbefore, hemail, -⟩ := updateAs_leaves hupdate
          have hpatch : (contactVerified method.channel).email = none := by
            cases method.channel <;> rfl
          rw [hget] at hbefore
          cases hbefore
          refine ⟨updateAs_keepsEmails hpatch hupdate, hlook.secrets, ?_⟩
          rintro done hdone hmarked
          cases hdone
          exact ⟨e, he, hmailed.trans (decide_eq_true hmarked), hlt, user, huser ▸ hget, hemail hpatch, hto⟩
      · exact hnothing (by simp)

lemma Addressed.set (h : Addressed clock m) (hle : clock ≤ now)
    (hnew : key.mailed = true → ∃ u, get m.rows s.record.userId = .ok u ∧ u.email = some s.sentTo) :
    Addressed now (m.set key s) := by
  refine h.step (KeepsEmails.refl _) fun e he hmailed hlt => ?_
  rcases List.mem_cons.mp he with rfl | he
  · exact .inr (hnew hmailed)
  · exact .inl ⟨e, (List.mem_filter.mp he).1, hmailed, lt_of_le_of_lt hle hlt, rfl, rfl⟩

lemma Addressed.later (h : Addressed clock m) (hle : clock ≤ now) : Addressed now m :=
  fun e he hmailed hlt => h e he hmailed (lt_of_le_of_lt hle hlt)

lemma Addressed.redeem {r : Redemption} (h : Addressed clock m) (hle : clock ≤ now)
    (hr : Redeems m now r) : Addressed now r.2 := by
  refine h.step hr.emails fun e he hmailed hlt => ?_
  obtain ⟨e₀, he₀, hkey, hends, huser, hto⟩ := hr.secrets e he
  exact .inl ⟨e₀, he₀, hkey ▸ hmailed, lt_of_le_of_lt hle (hends hlt), huser, hto⟩

end Outstanding

section Steps

variable {P : Platform} {hash : Hash} {schema : ProfileSchema} {directory : Directory} {m : Mailroom}
  {now clock : Instant} {call : MailCall} {r : Redemption}

lemma redeems_of_redemption (h : redemption P hash schema directory m now call = some r) :
    Redeems m now r := by
  cases call with
  | confirm token =>
      cases h
      exact confirm_redeems hash token
  | completePasswordReset token outcome =>
      cases h
      exact completePasswordReset_redeems hash token outcome
  | passwordlessVerify method flowId secret =>
      cases h
      exact passwordlessVerifyStep_redeems P hash schema directory method flowId secret
  | _ => cases h

lemma lookedUp_eq_some {identifier : String} {id : Uuid128}
    (h : lookedUp P m identifier id = some user) : get m.rows user.id = .ok user := by
  have hget := (Option.filter_eq_some_iff.mp h).1
  cases hrow : get m.rows id with
  | error e =>
      rw [hrow] at hget
      cases hget
  | ok user' =>
      rw [hrow] at hget
      cases hget
      exact (get_ok hrow).2.1 ▸ hrow

lemma eligibleFor_email {method : Method} {sentTo : String}
    (h : eligibleFor user method = some sentTo) (hchannel : method.channel = .email) :
    user.email = some sentTo := by
  cases method with
  | magicLink =>
      simp only [eligibleFor] at h
      split_ifs at h
      exact h
  | emailOtp =>
      simp only [eligibleFor] at h
      split_ifs at h
      exact h
  | smsOtp => cases hchannel

lemma sendPasswordless_addressed {method : Method} {flowId : Uuid} {secret : String}
    (h : Addressed clock m) (hle : clock ≤ now) (huser : get m.rows user.id = .ok user) :
    Addressed now (sendPasswordless hash m now method flowId user secret) := by
  cases hto : eligibleFor user method with
  | none =>
      simp only [sendPasswordless, hto]
      exact h.later hle
  | some sentTo =>
      cases method with
      | magicLink =>
          simp only [sendPasswordless, hto]
          exact h.set hle fun _ => ⟨user, huser, eligibleFor_email hto rfl⟩
      | emailOtp =>
          simp only [sendPasswordless, hto]
          exact h.set hle fun _ => ⟨user, huser, eligibleFor_email hto rfl⟩
      | smsOtp =>
          simp only [sendPasswordless, hto]
          exact h.set hle fun hmailed => absurd hmailed (by simp [SecretKey.mailed, Method.channel])

lemma sendVerification_addressed {flowId : Option Uuid} {token : String} {m' : Mailroom}
    (h : Addressed clock m) (hle : clock ≤ now) (huser : get m.rows user.id = .ok user)
    (hsent : sendVerification hash m now user flowId token = .ok m') : Addressed now m' := by
  rw [sendVerification] at hsent
  cases hemail : user.email with
  | none =>
      rw [hemail] at hsent
      cases hsent
  | some email =>
      rw [hemail] at hsent
      cases hsent
      exact h.set hle fun _ => ⟨user, huser, hemail⟩

lemma requestPasswordReset_addressed {token : String} (h : Addressed clock m)
    (hle : clock ≤ now) (huser : get m.rows user.id = .ok user) :
    Addressed now (requestPasswordReset hash m now user token) := by
  rw [requestPasswordReset]
  cases hemail : user.email with
  | none => exact h.later hle
  | some email =>
      simp only
      split_ifs
      · exact h.later hle
      · exact h.set hle fun _ => ⟨user, huser, hemail⟩

lemma updateAs_addressed {id : Uuid128}
    {rows : Table} {after : User} (h : Addressed clock m) (hle : clock ≤ now)
    (hcond : NothingOutstanding P schema directory ⟨clock, m⟩ (now, .updateAs byTheSystem editor id patch))
    (hupdate : updateAs P schema directory m.rows now byTheSystem editor id patch = .ok (rows, after)) :
    Addressed now { m with rows := rows } := by
  obtain ⟨before, hbefore, -, hrows⟩ := updateAs_leaves hupdate
  have hid : before.id = id := (get_ok hbefore).2.1
  intro e he hmailed hlt v hv
  have hbeforeEmail : ∀ u, get m.rows e.2.record.userId = .ok u → u.email = some e.2.sentTo :=
    h e he hmailed (lt_of_le_of_lt hle hlt)
  rcases hrows with ⟨rfl, -⟩ | ⟨rfl, hafter⟩
  · exact hbeforeEmail v hv
  · rcases get_replaceRow hv with ⟨huser, rfl⟩ | ⟨-, hv⟩
    · by_cases hchanged : v.email = before.email
      · rw [hchanged]
        exact hbeforeEmail before (by rw [huser, hafter, hid]; exact hbefore)
      · exact hcond before _ v hbefore hupdate hchanged e he hmailed hlt (by rw [huser, hafter, hid])
    · exact hbeforeEmail v hv

/-- **One call.**  What is outstanding stays addressed to whom it was sent, when no email is changed
under it. -/
lemma addressed_apply (h : Addressed clock m) (hle : clock ≤ now)
    (hcond : NothingOutstanding P schema directory ⟨clock, m⟩ (now, call)) :
    Addressed now (call.apply P hash schema directory m now) := by
  cases call with
  | sendVerification id flowId token =>
      simp only [MailCall.apply]
      cases hget : get m.rows id with
      | error e => exact h.later hle
      | ok user =>
          cases hsent : sendVerification hash m now user flowId token with
          | error e => simpa only [hsent] using h.later hle
          | ok m' =>
              simpa only [hsent] using
                sendVerification_addressed h hle ((get_ok hget).2.1 ▸ hget) hsent
  | requestPasswordReset identifier id token =>
      simp only [MailCall.apply]
      cases hfound : lookedUp P m identifier id with
      | none => exact h.later hle
      | some user => exact requestPasswordReset_addressed h hle (lookedUp_eq_some hfound)
  | sendPasswordless method identifier id flowId secret =>
      simp only [MailCall.apply]
      cases hfound : lookedUp P m identifier id with
      | none => exact h.later hle
      | some user => exact sendPasswordless_addressed h hle (lookedUp_eq_some hfound)
  | updateAs byTheSystem editor id patch =>
      simp only [MailCall.apply]
      cases hupdate : updateAs P schema directory m.rows now byTheSystem editor id patch with
      | error e => exact h.later hle
      | ok r => exact updateAs_addressed h hle hcond hupdate
  | confirm token => exact h.redeem hle (confirm_redeems hash token)
  | completePasswordReset token outcome =>
      exact h.redeem hle (completePasswordReset_redeems hash token outcome)
  | passwordlessVerify method flowId secret =>
      exact h.redeem hle (passwordlessVerifyStep_redeems P hash schema directory method flowId secret)

end Steps

/-! ## Every run -/

/-- **What is redeemed was mailed to the address it verifies.**  In every run of sending, changing and
redeeming over any users, whose changes of an email all come when nothing outstanding went to another
address than the new one: whenever a redemption that may follow marks a user's email verified, what it
redeemed was sent to the email the user has then. -/
theorem redeemed_was_mailed_to (P : Platform) (hash : Hash) (schema : ProfileSchema)
    (directory : Directory) (start : Instant) (rows : Table) (calls : List (Instant × MailCall))
    (w : MailWorld) (hrun : (mailMachine P hash schema directory).run ⟨start, ⟨rows, []⟩⟩ calls = some w)
    (hmeets : (mailMachine P hash schema directory).Meets (NothingOutstanding P schema directory)
      ⟨start, ⟨rows, []⟩⟩ calls)
    (now : Instant) (call : MailCall) (r : Redemption) (done : Redeemed) (hnow : w.clock ≤ now)
    (hcall : redemption P hash schema directory w.room now call = some r)
    (hdone : r.1 = .ok (some done)) (hmarked : done.marked = .email) :
    done.user.email = some done.sentTo := by
  have haddressed : Addressed w.clock w.room := by
    refine Machine.run_inv (I := fun w : MailWorld => Addressed w.clock w.room) ?_ hmeets hrun ?_
    · rintro w ⟨now, call⟩ w' h hcond hstep
      simp only [mailMachine, Option.ite_none_right_eq_some, Option.some.injEq] at hstep
      obtain ⟨hle, rfl⟩ := hstep
      exact addressed_apply h hle hcond
    · intro e he
      cases he
  obtain ⟨e, he, hmailed, hlt, u, hu, hemail, hto⟩ :=
    (redeems_of_redemption hcall).marked done hdone hmarked
  rw [hemail, haddressed e he hmailed (lt_of_le_of_lt hnow hlt) u hu, hto]

/-! ## A link that verifies another address -/

def mailPlatform : Platform where
  toLowercase := toAsciiLowercase
  validateEmail e := e.toList.contains '@'
  regex _ := none
  urlScheme _ := none
  parseDate _ := none
  asF64 _ := 0
  f64Text _ := "0"

def sampleUser : User :=
  { id := 1
    username := "ada"
    email := some "ada@example.com"
    passwordHash := some "argon2"
    createdAt := 0
    updatedAt := 0 }

def sampleMachine : Machine MailWorld (Instant × MailCall) :=
  mailMachine mailPlatform (fun s => s) ⟨[], false⟩ fun _ _ => .ok ()

def sampleSend : Instant × MailCall := (0, .sendVerification 1 none "token")

def sampleChange : Instant × MailCall :=
  (seconds 60, .updateAs false .admin 1 { email := some (some "eve@example.com") })

def sampleRedeem (m : Mailroom) : Redemption := confirm (fun s => s) m (seconds 120) "token"

/-- A link that is opened while the email is still the same. -/
theorem redeemed_was_mailed_to_ada : ∃ w done,
    sampleMachine.run ⟨0, ⟨[sampleUser], []⟩⟩ [sampleSend] = some w ∧
      (sampleRedeem w.room).1 = .ok (some done) ∧ done.user.email = some done.sentTo := by
  refine ⟨_, _, rfl, rfl, redeemed_was_mailed_to mailPlatform (fun s => s) ⟨[], false⟩ (fun _ _ => .ok ())
    0 [sampleUser] [sampleSend] _ rfl ⟨trivial, trivial⟩ (seconds 120) (.confirm "token") _ _
    (by decide) rfl rfl rfl⟩

/-- **A link verifies an address it was never sent to.**  It is sent to one address, the email is changed
to another, and the link is opened. -/
theorem stale_link_verifies : ∃ w done,
    sampleMachine.run ⟨0, ⟨[sampleUser], []⟩⟩ [sampleSend, sampleChange] = some w ∧
      (sampleRedeem w.room).1 = .ok (some done) ∧ done.marked = .email ∧
      done.user.emailVerified = true ∧ done.user.email = some "eve@example.com" ∧
      done.sentTo = "ada@example.com" := by
  exact ⟨_, _, rfl, rfl, rfl, rfl, rfl, rfl⟩

end Ridm.Users
