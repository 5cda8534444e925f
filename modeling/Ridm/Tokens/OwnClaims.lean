import Ridm.Tokens.IdToken

/-!
# Claims the token service owns cannot be forged

Two runs of the same request: one with whatever attributes, profile schema, scope definitions and
mappers there are, and one with none of them but the `audience` mappers (`bare`).  On every claim
the token service owns (`Owned`) the tokens agree: it is there in both or in neither, with the same
value (`owned_claims_not_forged`).

`roles` and `groups` are the two claims a mapper may reshape.  They hold only what the request has:
names of its roles, names of its groups, and paths of its groups where a mapper asks for paths.
-/

namespace Ridm.Tokens

open Users (User)

/-! ## The request without its data -/

/-- The user without attributes. -/
def bareUser (user : User) : User := { user with attributes := .object [] }

/-- It is an `audience` mapper. -/
def ClaimMapper.addsAudience (m : ClaimMapper) : Bool :=
  match m.kind with
  | .audience _ => true
  | _ => false

/-- The client with its `audience` mappers alone. -/
def TokenClient.bare (client : TokenClient) : TokenClient :=
  { client with mappers := client.mappers.filter ClaimMapper.addsAudience }

/-- The request with no attributes and no mappers but those. -/
def AccessTokenRequest.bare (req : AccessTokenRequest) : AccessTokenRequest :=
  { req with client := req.client.bare, user := req.user.map bareUser }

/-- The request with no attributes, no scope claims, and no mappers but those. -/
def IdTokenRequest.bare (req : IdTokenRequest) : IdTokenRequest :=
  { req with
    client := { req.client with toTokenClient := req.client.toTokenClient.bare, idTokenScopeClaims := false }
    user := bareUser req.user }

/-- An empty profile schema. -/
def TokenService.bare (S : TokenService) : TokenService := { S with schema := [] }

/-- An empty profile schema, and no scope definitions. -/
def IdTokenService.bare (S : IdTokenService) : IdTokenService :=
  { S with toTokenService := S.toTokenService.bare, scopes := [] }

/-! ## What the mappers add to the audiences -/

/-- The audience a mapper adds. -/
def ClaimMapper.extraAudience (kind : TokenKind) (m : ClaimMapper) : List String :=
  match m.kind with
  | .audience a => if kind = .access then [a] else []
  | _ => []

section Mappers

variable {F : Formats} {ctx : ClaimContext} {kind : TokenKind} {mappers : List ClaimMapper}

lemma fst_applyMapper (acc : List String × Members) (m : ClaimMapper) :
    (applyMapper F ctx kind acc m).1 = acc.1 ++ m.extraAudience kind := by
  rw [applyMapper, ClaimMapper.extraAudience]
  cases hkind : m.kind with
  | audience a =>
      have hfree : mapperClaimRefused m = false := by
        simp [mapperClaimRefused, ClaimMapper.claimName, hkind]
      rw [hfree]
      by_cases haccess : kind = .access
      · simp [haccess]
      · simp [haccess]
  | _ =>
      rw [List.append_nil]
      split
      · rfl
      · split <;> simp_all

lemma fst_applyMappers (claims : Members) : (applyMappers F mappers ctx kind claims).1 =
    (mappers.filter fun m => m.includeIn.contains kind).flatMap (·.extraAudience kind) := by
  have hfold : ∀ (ms : List ClaimMapper) (acc : List String × Members),
      (ms.foldl (applyMapper F ctx kind) acc).1 = acc.1 ++ ms.flatMap (·.extraAudience kind) := by
    intro ms
    induction ms with
    | nil => exact fun acc => (List.append_nil _).symm
    | cons m ms ih =>
        intro acc
        rw [List.foldl_cons, ih, fst_applyMapper, List.append_assoc, List.flatMap_cons]
  exact hfold _ _

variable {name : String} {req : AccessTokenRequest} {m : ClaimMapper} {claims : Members}

lemma extraAudience_eq_nil (h : m.addsAudience = false) : m.extraAudience kind = [] := by
  cases hkind : m.kind <;> simp_all [ClaimMapper.addsAudience, ClaimMapper.extraAudience]

/-- **Only `audience` mappers add audiences**, whatever the data. -/
lemma fst_applyMappers_bare {F' : Formats} {ctx' : ClaimContext} (claims claims' : Members) :
    (applyMappers F mappers ctx kind claims).1 =
      (applyMappers F' (mappers.filter ClaimMapper.addsAudience) ctx' kind claims').1 := by
  rw [fst_applyMappers, fst_applyMappers, List.filter_comm]
  induction mappers.filter (fun m => m.includeIn.contains kind) with
  | nil => rfl
  | cons m ms ih =>
      cases hadds : m.addsAudience with
      | false =>
          rw [List.flatMap_cons, extraAudience_eq_nil hadds, List.nil_append, ih,
            List.filter_cons_of_neg (by simp [hadds])]
      | true =>
          rw [List.flatMap_cons, ih, List.filter_cons_of_pos hadds, List.flatMap_cons]

/-! ## Roles and groups -/

/-- Names of roles, and nothing else. -/
def RolesOf (roles : List Role) (v : Value) : Prop :=
  ∃ l, v = textsJson l ∧ ∀ n ∈ l, ∃ r ∈ roles, n = r.name

/-- Names of groups and, with `paths`, their paths. -/
def GroupsOf (groups : List Group) (paths : Prop) (v : Value) : Prop :=
  ∃ l, v = textsJson l ∧ ∀ n ∈ l, ∃ g ∈ groups, n = g.name ∨ paths ∧ n = groupPath g groups

/-- Some mapper writes `groups` with `full_path`. -/
def WantsPaths (mappers : List ClaimMapper) : Prop := ∃ m ∈ mappers, m.kind = .groups "groups" true

/-- `roles` and `groups` hold what the request has. -/
structure MembersOnly (roles : List Role) (groups : List Group) (mappers : List ClaimMapper)
    (claims : Members) : Prop where
  roles : ∀ v, claims.get "roles" = some v → RolesOf roles v
  groups : ∀ v, claims.get "groups" = some v → GroupsOf groups (WantsPaths mappers) v

lemma mem_insertText {s t : String} {l : List String} (h : s ∈ insertText t l) : s = t ∨ s ∈ l := by
  induction l with
  | nil => exact .inl (List.mem_singleton.mp h)
  | cons u l ih =>
      rw [insertText] at h
      split_ifs at h
      · exact List.mem_cons.mp h
      · exact .inr h
      · rcases List.mem_cons.mp h with rfl | h
        · exact .inr List.mem_cons_self
        · exact (ih h).imp_right (List.mem_cons_of_mem u)

lemma mem_of_mem_sortedSet {s : String} {l : List String} (h : s ∈ sortedSet l) : s ∈ l := by
  induction l with
  | nil => cases h
  | cons t l ih =>
      rcases mem_insertText h with rfl | h
      · exact List.mem_cons_self
      · exact List.mem_cons_of_mem t (ih h)

lemma rolesOf_mapperValue {v : Value} (hname : m.claimName = some "roles")
    (hfree : mapperClaimRefused m = false) (hv : mapperValue F ctx m.kind = some v) :
    RolesOf ctx.roles v := by
  cases hkind : m.kind with
  | roles claim clientId =>
      rw [hkind, mapperValue, Option.some.injEq] at hv
      refine ⟨_, hv.symm, fun n hn => ?_⟩
      obtain ⟨r, hr, rfl⟩ := List.mem_map.mp (mem_of_mem_sortedSet hn)
      exact ⟨r, List.mem_of_mem_filter hr, rfl⟩
  | _ => simp [mapperClaimRefused, hname, hkind, BUILDER_CLAIMS] at hfree

lemma groupsOf_mapperValue {v : Value} (hmem : m ∈ mappers)
    (hname : m.claimName = some "groups") (hfree : mapperClaimRefused m = false)
    (hv : mapperValue F ctx m.kind = some v) : GroupsOf ctx.groups (WantsPaths mappers) v := by
  cases hkind : m.kind with
  | groups claim fullPath =>
      obtain rfl : claim = "groups" := by simpa [ClaimMapper.claimName, hkind] using hname
      rw [hkind, mapperValue] at hv
      obtain ⟨_, -, hv⟩ := Option.bind_eq_some_iff.mp hv
      refine ⟨_, (Option.some.inj hv).symm, fun n hn => ?_⟩
      obtain ⟨g, hg, rfl⟩ := List.mem_map.mp (mem_of_mem_sortedSet hn)
      refine ⟨g, hg, ?_⟩
      cases fullPath with
      | false => exact .inl rfl
      | true => exact .inr ⟨⟨m, hmem, hkind⟩, rfl⟩
  | _ => simp [mapperClaimRefused, hname, hkind, BUILDER_CLAIMS] at hfree

lemma MembersOnly.applyMapper {acc : List String × Members} (hmem : m ∈ mappers)
    (h : MembersOnly ctx.roles ctx.groups mappers acc.2) :
    MembersOnly ctx.roles ctx.groups mappers (Tokens.applyMapper F ctx kind acc m).2 := by
  rw [Tokens.applyMapper]
  by_cases hrefused : mapperClaimRefused m = true
  · rw [if_pos hrefused]
    exact h
  · rw [if_neg hrefused]
    rw [Bool.not_eq_true] at hrefused
    split
    · split <;> exact h
    · next claim v hclaim hv _ =>
        constructor
        · intro v' hv'
          rw [Members.get_insert] at hv'
          split_ifs at hv' with hname
          · cases hv'
            exact rolesOf_mapperValue (hname ▸ hclaim) hrefused hv
          · exact h.roles v' hv'
        · intro v' hv'
          rw [Members.get_insert] at hv'
          split_ifs at hv' with hname
          · cases hv'
            exact groupsOf_mapperValue hmem (hname ▸ hclaim) hrefused hv
          · exact h.groups v' hv'
    · exact h

/-- **All mappers** keep them so. -/
lemma MembersOnly.applyMappers (ctx : ClaimContext)
    (h : MembersOnly ctx.roles ctx.groups mappers claims) :
    MembersOnly ctx.roles ctx.groups mappers (Tokens.applyMappers F mappers ctx kind claims).2 := by
  have hfold : ∀ (ms : List ClaimMapper), (∀ m ∈ ms, m ∈ mappers) → ∀ acc : List String × Members,
      MembersOnly ctx.roles ctx.groups mappers acc.2 →
        MembersOnly ctx.roles ctx.groups mappers (ms.foldl (Tokens.applyMapper F ctx kind) acc).2 := by
    intro ms
    induction ms with
    | nil => exact fun _ _ hacc => hacc
    | cons m ms ih =>
        intro hms acc hacc
        rw [List.forall_mem_cons] at hms
        rw [List.foldl_cons]
        exact ih hms.2 _ (hacc.applyMapper hms.1)
  exact hfold _ (fun m hm => List.mem_of_mem_filter hm) ([], claims) h

lemma membersOnly_of_none {roles : List Role} {groups : List Group}
    (hroles : claims.get "roles" = none) (hgroups : claims.get "groups" = none) :
    MembersOnly roles groups mappers claims where
  roles v hv := by
    rw [hroles] at hv
    cases hv
  groups v hv := by
    rw [hgroups] at hv
    cases hv

end Mappers

/-! ## The two runs -/

lemma Owned.ne_roles (h : Owned name) : name ≠ "roles" := by
  rintro rfl
  rcases h with h | h
  · exact absurd h (by decide)
  · exact absurd h (by decide)

lemma Owned.ne_groups (h : Owned name) : name ≠ "groups" := by
  rintro rfl
  rcases h with h | h
  · exact absurd h (by decide)
  · exact absurd h (by decide)

lemma get_accessClaims_bare (S : TokenService) (req : AccessTokenRequest) (jti : Uuid)
    (now exp : Instant) (h : Owned name) :
    (accessClaims S req jti now exp).get name = (accessClaims S.bare req.bare jti now exp).get name := by
  have hdata : (dataClaims S req).2.get name = none := get_dataClaims h
  have hbare : (dataClaims S.bare req.bare).2.get name = none := get_dataClaims h
  have haud : (dataClaims S req).1 = (dataClaims S.bare req.bare).1 := fst_applyMappers_bare _ _
  -- the subject is read off the user, who is there in both runs or in neither
  obtain ⟨tenant, client, user, scopes, audiences, roles, groups, sessionId, authTime, amr, acr, orgId,
    cnfJkt, cnfX5t, act⟩ := req
  cases user <;>
  · simp only [accessClaims, Members.get_insertSome, get_memberships h.ne_roles h.ne_groups, ownClaims,
      Members.get_insert, hdata, hbare, haud]
    rfl

lemma get_idClaims_bare (S : IdTokenService) (req : IdTokenRequest) (alg : SigningAlg)
    (now exp : Instant) (h : Owned name) :
    (idClaims S req alg now exp).get name = (idClaims S.bare req.bare alg now exp).get name := by
  have hdata : (idDataClaims S req).get name = none := get_idDataClaims h
  have hbare : (idDataClaims S.bare req.bare).get name = none := get_idDataClaims h
  simp only [idClaims, Members.get_insertSome, Members.get_insert, hdata, hbare]
  rfl

lemma get_ownClaims_member {S : TokenService} {jti : Uuid}
    {now exp : Instant} (h : name = "roles" ∨ name = "groups") :
    (ownClaims S req jti now exp).get name = (dataClaims S req).2.get name := by
  rcases h with rfl | rfl <;> simp [ownClaims, Members.get_insertSome, Members.get_insert]

lemma get_accessClaims_member {S : TokenService} {jti : Uuid}
    {now exp : Instant} (h : name = "roles" ∨ name = "groups") :
    (accessClaims S req jti now exp).get name =
      (memberships req (ownClaims S req jti now exp)).get name := by
  rcases h with rfl | rfl <;> simp [accessClaims, Members.get_insertSome]

lemma MembersOnly.memberships (h : MembersOnly req.roles req.groups req.client.mappers claims) :
    MembersOnly req.roles req.groups req.client.mappers (Tokens.memberships req claims) := by
  rw [Tokens.memberships]
  split_ifs
  · constructor
    · intro v hv
      simp only [Members.get_orInsert, String.reduceEq, false_and, if_false, true_and] at hv
      split_ifs at hv
      · cases hv
        exact ⟨_, rfl, fun n hn => by simpa [eq_comm] using hn⟩
      · exact h.roles v hv
    · intro v hv
      simp only [Members.get_orInsert, String.reduceEq, false_and, if_false, true_and] at hv
      split_ifs at hv
      · cases hv
        refine ⟨_, rfl, fun n hn => ?_⟩
        obtain ⟨g, hg, rfl⟩ := List.mem_map.mp hn
        exact ⟨g, hg, .inl rfl⟩
      · exact h.groups v hv
  · exact h

lemma membersOnly_accessClaims (S : TokenService) (req : AccessTokenRequest) (jti : Uuid)
    (now exp : Instant) : MembersOnly req.roles req.groups req.client.mappers
      (accessClaims S req jti now exp) := by
  have hdata : MembersOnly req.roles req.groups req.client.mappers (dataClaims S req).2 := by
    unfold dataClaims
    refine MembersOnly.applyMappers ⟨req.tenant.id, req.user, req.client.clientId, req.scopes, req.roles,
      req.groups⟩ (membersOnly_of_none ?_ ?_)
    · cases req.user with
      | none => rfl
      | some user => exact get_profileClaims (by decide) user S.schema .accessToken []
    · cases req.user with
      | none => rfl
      | some user => exact get_profileClaims (by decide) user S.schema .accessToken []
  have hown : MembersOnly req.roles req.groups req.client.mappers (ownClaims S req jti now exp) :=
    ⟨get_ownClaims_member (.inl rfl) ▸ hdata.roles, get_ownClaims_member (.inr rfl) ▸ hdata.groups⟩
  exact ⟨get_accessClaims_member (.inl rfl) ▸ hown.memberships.roles,
    get_accessClaims_member (.inr rfl) ▸ hown.memberships.groups⟩

lemma membersOnly_idClaims (S : IdTokenService) (req : IdTokenRequest) (alg : SigningAlg)
    (now exp : Instant) : MembersOnly req.roles req.groups req.client.mappers
      (idClaims S req alg now exp) := by
  have hreleased : ∀ name, releasable name = false →
      (profileClaims req.user S.schema .idToken
        (if req.client.idTokenScopeClaims then scopeClaims req.user req.scopes S.scopes else [])).get
          name = none := by
    intro name h
    rw [get_profileClaims h]
    split_ifs
    · exact get_scopeClaims h ..
    · rfl
  have hdata : MembersOnly req.roles req.groups req.client.mappers (idDataClaims S req) := by
    unfold idDataClaims
    exact MembersOnly.applyMappers ⟨req.tenant.id, some req.user, req.client.clientId, req.scopes,
      req.roles, req.groups⟩
      (membersOnly_of_none (hreleased "roles" (by decide)) (hreleased "groups" (by decide)))
  have hget : ∀ name, name = "roles" ∨ name = "groups" →
      (idClaims S req alg now exp).get name = (idDataClaims S req).get name := by
    rintro _ (rfl | rfl) <;> simp [idClaims, Members.get_insertSome, Members.get_insert]
  exact ⟨hget _ (.inl rfl) ▸ hdata.roles, hget _ (.inr rfl) ▸ hdata.groups⟩

/-- **Claims the token service owns cannot be forged.**  For every user, schema, scope definition and
list of mappers, and every request:

* on each protected claim and on `permissions`, the access token and the ID token are those of the
  bare request;
* `roles` and `groups` hold names of the request's roles and groups, or paths of its groups where a
  mapper asks for them. -/
theorem owned_claims_not_forged (S : IdTokenService) :
    (∀ (req : AccessTokenRequest) (jti : Uuid) (now : Instant) (t : IssuedToken),
      issueAccessToken S.toTokenService req jti now = .ok t →
        (∀ name, Owned name →
          t.claims.get name =
            (accessClaims S.toTokenService.bare req.bare jti now t.expiresAt).get name) ∧
        MembersOnly req.roles req.groups req.client.mappers t.claims) ∧
    ∀ (req : IdTokenRequest) (now : Instant) (t : IssuedToken), issueIdToken S req now = .ok t →
      ∃ alg, S.keyAlg req.client.idTokenAlg = .ok alg ∧
        (∀ name, Owned name →
          t.claims.get name = (idClaims S.bare req.bare alg now t.expiresAt).get name) ∧
        MembersOnly req.roles req.groups req.client.mappers t.claims := by
  constructor
  · intro req jti now t hissued
    obtain ⟨hclaims, -, -⟩ := issueAccessToken_ok hissued
    rw [hclaims]
    exact ⟨fun name h => get_accessClaims_bare _ req jti now _ h, membersOnly_accessClaims _ req jti now _⟩
  · intro req now t hissued
    obtain ⟨alg, halg, hclaims, -⟩ := issueIdToken_ok hissued
    refine ⟨alg, halg, ?_⟩
    rw [hclaims]
    exact ⟨fun name h => get_idClaims_bare S req alg now _ h, membersOnly_idClaims S req alg now _⟩

/-! ## An attempt -/

def forger : User where
  id := 7
  username := "mallory"
  attributes := .object [("act", .object [("sub", .string "admin")]), ("permissions", .array [.string "*"])]
  createdAt := 0
  updatedAt := 0

def obligingService : IdTokenService where
  formats := ⟨fun source _ => some source, fun _ => none⟩
  schema := [⟨"act", [.accessToken, .idToken]⟩, ⟨"permissions", [.accessToken, .idToken]⟩]
  enabledFeatures _ := []
  pairwiseSubject sector _ := sector
  mint _ _ _ _ := .ok "access"
  scopes := [⟨"profile", ["act", "permissions", "nickname"]⟩]
  keyAlg _ := .ok .es256
  halfHash _ text := text
  sealToken _ _ _ := .ok "id"

def everywhere (name : String) (kind : MapperKind) : ClaimMapper := ⟨name, kind, [.access, .id, .userinfo]⟩

def forgingClient : IdTokenClient where
  clientId := "app"
  subjectType := .publicSubject
  sectorIdentifier := none
  accessTokenTtl := 300
  mappers := [everywhere "actor" (.hardcoded "act" (.string "admin")),
    everywhere "grants" (.template "permissions" "*"), everywhere "all" (.hardcoded "roles" (.string "root")),
    everywhere "realm roles" (.roles "roles" none), everywhere "api" (.audience "https://api.example")]
  accessTokenFormat := .jwt
  accessTokenAlg := none
  permissions := []
  notAfter := none
  idTokenTtl := 300
  idTokenScopeClaims := true
  idTokenAlg := none
  idTokenEncryption := none

def forgedAccess : AccessTokenRequest where
  tenant := ⟨3, "https://id.example/t/acme"⟩
  client := forgingClient.toTokenClient
  user := some forger
  scopes := ["openid", "profile"]
  audiences := []
  roles := [⟨1, none, "reader"⟩]
  groups := []
  sessionId := none
  authTime := none
  amr := []
  acr := none
  orgId := none
  cnfJkt := none
  cnfX5t := none
  act := none

def forgedId : IdTokenRequest where
  tenant := ⟨3, "https://id.example/t/acme"⟩
  client := forgingClient
  user := forger
  scopes := ["openid", "profile"]
  roles := [⟨1, none, "reader"⟩]
  groups := []
  sessionId := none
  authTime := 0
  orgId := none
  nonce := none
  amr := []
  acr := none
  accessToken := none
  code := none
  act := none

/-- Neither token names an actor or grants a permission; `roles` is the user's one role, and the
audience is the mapper's. -/
theorem owned_claims_not_forged_forger :
    (∃ t, issueAccessToken obligingService.toTokenService forgedAccess 32 (seconds 100) = .ok t ∧
      t.claims.get "act" = none ∧ t.claims.get "permissions" = none ∧
      t.claims.get "aud" = some (.string "https://api.example") ∧
      t.claims.get "roles" = some (.array [.string "reader"])) ∧
    ∃ t, issueIdToken obligingService forgedId (seconds 100) = .ok t ∧
      t.claims.get "act" = none ∧ t.claims.get "permissions" = none := by
  constructor
  · refine ⟨_, rfl, ?_⟩
    have hbare := ((owned_claims_not_forged obligingService).1 forgedAccess 32 (seconds 100) _ rfl).1
    rw [hbare "act" (.inl (by decide)), hbare "permissions" (.inr rfl), hbare "aud" (.inl (by decide))]
    decide +kernel
  · refine ⟨_, rfl, ?_⟩
    obtain ⟨alg, -, hbare, -⟩ := (owned_claims_not_forged obligingService).2 forgedId (seconds 100) _ rfl
    rw [hbare "act" (.inl (by decide)), hbare "permissions" (.inr rfl)]
    exact ⟨rfl, rfl⟩

end Ridm.Tokens
