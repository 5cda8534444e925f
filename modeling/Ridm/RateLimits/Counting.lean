import Mathlib.Data.Fintype.Basic
import Ridm.Cache.KeyCollisions
import Ridm.Cache.Routing
import Ridm.Core.KeyCommands
import Ridm.RateLimits.Decision
import Ridm.Relocation.Model

/-!
# Counting requests

The counting of `api/src/services/rate_limit.rs`: a request adds one to each of its counters, by one script
call per Valkey the counters are on, and is decided by the counts that it was answered (`RateLimits/Decision`).
Any number of requests are under way, on any nodes; a call may fail before it reaches the server or after, and
then the request is let pass.

A key tells the counter (`counter_of_key`), each counter of a request is in one of its script calls
(`groups_perm`), and all keys of a script call are on the Valkey that it is sent to
(`script_reaches_its_keys`).
-/

namespace Ridm.RateLimits

open Cache.Routing (keyTenant Deployment)
open Relocation (HOME_REGION)

/-! ## The script -/

/-- The body of the scripts `HIT` and `HIT_MANY`: the count, the time left, and the key after. -/
def hitKey (k : Slot ℕ) (windowMs : ℕ) (now : Instant) : (ℕ × ℤ) × Slot ℕ :=
  let r := (k.found now).incr
  let k := if r.1 = 1 then r.2.pexpire windowMs now else r.2
  if k.pttl now < 0 then ((r.1, (windowMs : ℤ)), k.pexpire windowMs now) else ((r.1, k.pttl now), k)

/-- `pair_of`: a count and the milliseconds left, as the script returns them. -/
def pairOf (r : ℕ × ℤ) : ℕ × ℕ := (r.1, r.2.toNat)

/-- The server: its clock, and its keys. -/
structure Server where
  now : Instant
  keys : String → Slot ℕ

/-- One round of the loop of `HIT_MANY`, for the `i`th of the counters. -/
def hitOne (wants : List Want) (now : Instant) (r : (String → Slot ℕ) × List (ℕ × ℕ)) (i : ℕ) :
    (String → Slot ℕ) × List (ℕ × ℕ) :=
  match wants[i]? with
  | none => r
  | some want =>
      let hit := hitKey (r.1 want.key) want.windowMs now
      (Function.update r.1 want.key hit.2, r.2.set i (pairOf hit.1))

/-- A call of `HIT_MANY`, or of `HIT`, for the counters at the given places. -/
def hitMany (wants : List Want) (s : Server) (out : List (ℕ × ℕ)) (group : List ℕ) :
    Server × List (ℕ × ℕ) :=
  let r := group.foldl (hitOne wants s.now) (s.keys, out)
  ({ s with keys := r.1 }, r.2)

/-- The script calls of `count`: the places of the counters of each.  In a cluster every counter is its own;
else the counters of the deployment and those of the tenant are on two servers, or on one. -/
def groups (cluster : Bool) (D : Deployment) (region : Option String) (wants : List Want) : List (List ℕ) :=
  let isTenant := fun i => (wants[i]?.bind fun w => keyTenant w.key).isSome
  if cluster then (List.range wants.length).map ([·])
  else if D.sameBackend none region then [List.range wants.length]
  else
    [(List.range wants.length).filter (!isTenant ·), (List.range wants.length).filter isTenant].filter
      (! ·.isEmpty)

/-! ## Requests -/

/-- What requests are counted by: the deployment's settings, and the tenants'. -/
structure Limits where
  cfg : Config
  policy : Uuid128 → RateLimitPolicy
  tokenPerClient : Uuid128 → UInt32

/-- A request at the door (`hit`), or a client's at the token endpoint (`hit_client`). -/
inductive Request
  | hit (tenant : Option Uuid128) (category : Category) (ip : Option String)
  | hitClient (tenant client : Uuid128)

/-- The counters of a request. -/
def Limits.wants (L : Limits) : Request → List Want
  | .hit tenant category ip => buckets L.cfg (tenant.map fun t => (t, L.policy t)) category ip
  | .hitClient t client =>
      if !L.cfg.enabled || !(L.policy t).enabled || L.tokenPerClient t == 0 then []
      else
        [⟨Cache.Keys.tenantKey t ["rl", "client", client.display], L.tokenPerClient t, windowMs (L.policy t)⟩]

/-- Where a request stands. -/
inductive Call
  | idle
  | counting (left : List (List ℕ)) (out : List (ℕ × ℕ))
  | decided (out : List (ℕ × ℕ))
  | failedOpen
  deriving DecidableEq

/-- The requests of a while: what they are counted by, where the servers are, and each request with the region
its tenant was read with. -/
structure Traffic (ι : Type) where
  limits : Limits
  cluster : Bool
  deployment : Deployment
  region : ι → Option String
  request : ι → Request

/-- It is over. -/
def Call.ended : Call → Bool
  | .idle | .counting _ _ => false
  | .decided _ | .failedOpen => true

/-- What its counts say of it, where it has them. -/
def Call.verdict (wants : List Want) : Call → Option Bool
  | .decided out => some (decide wants out).allowed
  | .idle | .counting _ _ | .failedOpen => none

lemma Call.verdict_eq_some {wants : List Want} {l : Call} {v : Bool} :
    l.verdict wants = some v ↔ ∃ out, l = .decided out ∧ (decide wants out).allowed = v := by
  cases l <;> simp [Call.verdict]

namespace Traffic

variable {ι : Type} (T : Traffic ι)

/-- The counters of a request. -/
def wants (i : ι) : List Want := T.limits.wants (T.request i)

/-- Its script calls. -/
def plan (i : ι) : List (List ℕ) := groups T.cluster T.deployment (T.region i) (T.wants i)

/-- One step of `run`. -/
def act (i : ι) (s : Server) : Call → Delivery → Option (Server × Call)
  | .idle, .answered => some (s, .counting (T.plan i) (List.replicate (T.wants i).length (0, 0)))
  | .idle, _ => some (s, .failedOpen)
  | .counting [] out, _ => some (s, .decided out)
  | .counting (_ :: _) _, .unsent => some (s, .failedOpen)
  | .counting (g :: _) out, .unanswered => some ((hitMany (T.wants i) s out g).1, .failedOpen)
  | .counting (g :: gs) out, .answered =>
      some ((hitMany (T.wants i) s out g).1, .counting gs (hitMany (T.wants i) s out g).2)
  | .decided _, _ | .failedOpen, _ => none

/-- Any number of requests, while time passes. -/
def run : Calls ι Server Call Delivery ℕ where
  act := T.act
  env s d := some { s with now := s.now + d }

end Traffic

/-- Nobody has been counted yet. -/
def start {ι : Type} (now : Instant) : Pool ι Server Call := ⟨⟨now, fun _ => none⟩, fun _ => .idle⟩

/-! ## One hit -/

section

variable {k : Slot ℕ} {windowMs c : ℕ} {now d : Instant}

lemma hitKey_none (h : k.found now = none) :
    hitKey k windowMs now = ((1, (windowMs : ℤ)), some ⟨1, some (now + windowMs)⟩) := by
  simp [hitKey, h, Slot.incr, Slot.pexpire, Slot.pttl]

lemma hitKey_some (h : k.found now = some ⟨c, some d⟩) (hc : c ≠ 0) :
    hitKey k windowMs now = ((c + 1, d - now), some ⟨c + 1, some d⟩) := by
  have hlt : now < d := (Slot.found_eq_some.mp h).2 d rfl
  have hleft : ¬ d - now < 0 := Int.not_lt.mpr (Int.sub_nonneg_of_le (Int.le_of_lt hlt))
  simp [hitKey, h, Slot.incr, Slot.pttl, hleft, hc]

end

/-! ## Counters -/

/-- A counter, by what it counts. -/
inductive Counter
  | address (ip : String)
  | tenantAddress (tenant : Uuid128) (category : Category) (ip : String)
  | tenant (tenant : Uuid128)
  | client (tenant client : Uuid128)

def Limits.want (L : Limits) : Counter → Want
  | .address ip => ⟨Delimited.join ':' [Cache.Keys.PREFIX, "rl", "ip", ip], L.cfg.ipPerMinute, 60000⟩
  | .tenantAddress t category ip =>
      ⟨Cache.Keys.tenantKey t ["rl", category.asStr, "ip", ip], category.perIp (L.policy t),
        windowMs (L.policy t)⟩
  | .tenant t => ⟨Cache.Keys.tenantKey t ["rl", "all"], (L.policy t).tenantTotal, windowMs (L.policy t)⟩
  | .client t c =>
      ⟨Cache.Keys.tenantKey t ["rl", "client", c.display], L.tokenPerClient t, windowMs (L.policy t)⟩

/-- The counters of a request, in order. -/
def Limits.counters (L : Limits) : Request → List Counter
  | .hit tenant category ip =>
      if !L.cfg.enabled then []
      else
        (if 0 < L.cfg.ipPerMinute then (ip.map .address).toList else []) ++
        match tenant with
        | none => []
        | some t =>
            if !(L.policy t).enabled then []
            else
              (if 0 < category.perIp (L.policy t) then (ip.map (.tenantAddress t category)).toList else []) ++
              if 0 < (L.policy t).tenantTotal then [.tenant t] else []
  | .hitClient t client =>
      if !L.cfg.enabled || !(L.policy t).enabled || L.tokenPerClient t == 0 then [] else [.client t client]

lemma wants_eq (L : Limits) (r : Request) : L.wants r = (L.counters r).map L.want := by
  cases r with
  | hit tenant category ip =>
      cases tenant with
      | none =>
          simp only [Limits.wants, Limits.counters, buckets, perAddress, Option.map_none, List.append_nil]
          split_ifs <;> cases ip <;> rfl
      | some t =>
          simp only [Limits.wants, Limits.counters, buckets, perAddress, Option.map_some]
          split_ifs <;> cases ip <;> rfl
  | hitClient t client =>
      simp only [Limits.wants, Limits.counters]
      split_ifs <;> rfl

section Keys

open Delimited (words)

/-- The words of a counter's key. -/
def Counter.path : Counter → List String
  | .address ip => "ridm" :: "rl" :: "ip" :: words ':' ip
  | .tenantAddress t category ip => "ridm" :: "t" :: t.display :: "rl" :: category.asStr :: "ip" :: words ':' ip
  | .tenant t => ["ridm", "t", t.display, "rl", "all"]
  | .client t c => ["ridm", "t", t.display, "rl", "client", c.display]

lemma words_key (L : Limits) (c : Counter) : words ':' (L.want c).key = c.path := by
  have hword : ∀ w ∈ ["ridm", "rl", "ip", "all", "client", "token", "authorize", "flows"], words ':' w = [w] := by
    intro w hw
    refine Delimited.words_of_plain ?_
    revert w
    decide
  have hcategory : ∀ category : Category, words ':' category.asStr = [category.asStr] := by
    intro category
    cases category <;> exact hword _ (by decide)
  cases c with
  | address ip =>
      rw [Limits.want, Delimited.words_join (List.cons_ne_nil _ _)]
      simp [Cache.Keys.PREFIX, Counter.path, hword]
  | tenantAddress t category ip =>
      rw [Limits.want, Cache.Keys.words_tenantKey]
      simp [Counter.path, hword, hcategory]
  | tenant t =>
      rw [Limits.want, Cache.Keys.words_tenantKey]
      simp [Counter.path, hword]
  | client t c =>
      rw [Limits.want, Cache.Keys.words_tenantKey]
      simp [Counter.path, hword, Cache.Keys.words_display]

lemma display_inj {u v : Uuid128} (h : u.display = v.display) : u = v := by
  have hread := congrArg Uuid128.ofDisplay h
  simpa using hread

lemma asStr_inj {c c' : Category} (h : c.asStr = c'.asStr) : c = c' := by
  revert h
  cases c <;> cases c' <;> decide

/-- **A key tells the counter.** -/
theorem counter_of_key (L : Limits) {c c' : Counter} (h : (L.want c).key = (L.want c').key) : c = c' := by
  have hpath : c.path = c'.path := by rw [← words_key L, h, words_key]
  cases c with
  | address ip =>
      cases c' <;> simp [Counter.path] at hpath
      rw [Delimited.words_inj hpath]
  | tenantAddress t category ip =>
      cases c' <;> simp [Counter.path, Delimited.words_ne_nil] at hpath
      obtain ⟨ht, hcategory, hip⟩ := hpath
      rw [display_inj ht, asStr_inj hcategory, Delimited.words_inj hip]
  | tenant t =>
      cases c' <;> simp [Counter.path] at hpath
      rw [display_inj hpath]
  | client t c =>
      cases c' with
      | client t' c' =>
          simp only [Counter.path, List.cons.injEq, true_and, and_true] at hpath
          rw [display_inj hpath.1, display_inj hpath.2]
      | tenantAddress t' category ip =>
          simp only [Counter.path, List.cons.injEq, true_and] at hpath
          exact absurd hpath.2.2.2.symm (Delimited.words_ne_nil ip)
      | address ip | tenant t' => simp [Counter.path] at hpath

lemma want_of_key {L : Limits} {r r' : Request} {w w' : Want} (hw : w ∈ L.wants r) (hw' : w' ∈ L.wants r')
    (h : w.key = w'.key) : w = w' := by
  rw [wants_eq, List.mem_map] at hw hw'
  obtain ⟨c, -, rfl⟩ := hw
  obtain ⟨c', -, rfl⟩ := hw'
  rw [counter_of_key L h]

lemma counters_nodup (L : Limits) (r : Request) : (L.counters r).Nodup := by
  cases r with
  | hit tenant category ip =>
      cases tenant <;> cases ip <;> simp only [Limits.counters] <;> split_ifs <;> simp
  | hitClient t client =>
      simp only [Limits.counters]
      split_ifs <;> simp

lemma wants_nodup (L : Limits) (r : Request) : (L.wants r).Nodup := by
  rw [wants_eq]
  exact (counters_nodup L r).map fun c c' h => counter_of_key L (congrArg Want.key h)

end Keys

lemma groups_perm (cluster : Bool) (D : Deployment) (region : Option String) (wants : List Want) :
    (groups cluster D region wants).flatten.Perm (List.range wants.length) := by
  simp only [groups]
  split_ifs with hcluster hsame
  · simp [← List.flatMap_def]
  · simp
  · rw [List.flatten_filter_not_isEmpty, List.flatten_cons, List.flatten_cons, List.flatten_nil, List.append_nil]
    exact List.perm_append_comm.trans (List.filter_append_perm _ _)

/-! ## Where a script call goes -/

/-- A script call of `HIT_MANY`, as a command: its keys, and their windows. -/
def callOf (sha : String) (wants : List Want) (group : List ℕ) : Cache.Routing.Cmd :=
  let called := group.filterMap (wants[·]?)
  "EVALSHA" :: sha :: called.length.repr :: (called.map (·.key) ++ called.map (·.windowMs.repr))

def Request.tenant : Request → Option Uuid128
  | .hit tenant _ _ => tenant
  | .hitClient tenant _ => some tenant

def Counter.tenant? : Counter → Option Uuid128
  | .address _ => none
  | .tenantAddress t _ _ | .tenant t | .client t _ => some t

lemma keyTenant_want (L : Limits) (c : Counter) : keyTenant (L.want c).key = c.tenant? := by
  cases c with
  | address ip =>
      have hkey : (L.want (.address ip)).key =
          String.ofList ("ridm:".toList ++ 'r' :: ("l:ip:".toList ++ ip.toList)) := by
        simp [Limits.want, Cache.Keys.PREFIX, Delimited.join]
      rw [hkey, Cache.Routing.keyTenant_eq_none (by decide)]
      rfl
  | tenantAddress t category ip | tenant t | client t c => exact Cache.Routing.keyTenant_tenantKey t _

lemma tenant_of_mem {L : Limits} {r : Request} {c : Counter} {t : Uuid128} (hc : c ∈ L.counters r)
    (ht : c.tenant? = some t) : r.tenant = some t := by
  cases r with
  | hit tenant category ip =>
      cases tenant <;> cases ip <;> simp only [Limits.counters] at hc <;> split_ifs at hc <;> simp at hc
      all_goals grind [Counter.tenant?, Request.tenant]
  | hitClient t' client =>
      simp only [Limits.counters] at hc
      split_ifs at hc
      · cases hc
      · obtain rfl := List.mem_singleton.mp hc
        exact ht

lemma length_wants (L : Limits) (r : Request) : (L.wants r).length ≤ 3 := by
  rw [wants_eq, List.length_map]
  cases r with
  | hit tenant category ip =>
      cases tenant <;> cases ip <;> simp only [Limits.counters] <;> split_ifs <;> simp
  | hitClient t client =>
      simp only [Limits.counters]
      split_ifs <;> simp

lemma index_of_sameBackend {D : Deployment} {region : Option String} (hhome : HOME_REGION ∉ D.regions)
    (h : D.sameBackend none region = true) : D.index (region.getD HOME_REGION) = 0 := by
  have hnone : D.regions.findIdx? (· == region.getD HOME_REGION) = none := by
    cases region with
    | none =>
        rw [List.findIdx?_eq_none_iff]
        intro x hx
        rw [beq_eq_false_iff_ne]
        rintro rfl
        exact hhome hx
    | some name =>
        rw [Deployment.sameBackend, beq_iff_eq] at h
        exact h.symm
  rw [Deployment.index, hnone]
  rfl

lemma backendIndex_group {L : Limits} {r : Request} {cluster : Bool} {D : Deployment} {region : Option String}
    (hhome : HOME_REGION ∉ D.regions) (hplaced : ∀ t ∈ r.tenant, D.locate t = some (region.getD HOME_REGION))
    {g : List ℕ} (hg : g ∈ groups cluster D region (L.wants r)) {p q : ℕ} (hp : p ∈ g) (hq : q ∈ g)
    {b b' : Want} (hb : (L.wants r)[p]? = some b) (hb' : (L.wants r)[q]? = some b') :
    D.backendIndex (some b.key) = D.backendIndex (some b'.key) := by
  have hnone : ∀ {b : Want}, keyTenant b.key = none → D.backendIndex (some b.key) = some 0 := by
    intro b h
    rw [Deployment.backendIndex, Option.bind_some, h]
  have hcounter : ∀ {p : ℕ} {b : Want}, (L.wants r)[p]? = some b → keyTenant b.key = none ∨
      D.backendIndex (some b.key) = some (D.index (region.getD HOME_REGION)) := by
    intro p b hb
    have hmem := List.mem_of_getElem? hb
    rw [wants_eq, List.mem_map] at hmem
    obtain ⟨c, hc, rfl⟩ := hmem
    rw [Deployment.backendIndex, Option.bind_some, keyTenant_want]
    cases ht : c.tenant? with
    | none => exact .inl rfl
    | some t =>
        right
        show (D.locate t).map D.index = _
        rw [hplaced t (tenant_of_mem hc ht), Option.map_some]
  simp only [groups] at hg
  split_ifs at hg with hcluster hsame
  · obtain ⟨q', -, rfl⟩ := List.mem_map.mp hg
    obtain rfl := List.mem_singleton.mp hp
    obtain rfl := List.mem_singleton.mp hq
    rw [Option.some.inj (hb.symm.trans hb')]
  · have hall : ∀ {p : ℕ} {b : Want}, (L.wants r)[p]? = some b → D.backendIndex (some b.key) = some 0 := by
      intro p b hb
      rcases hcounter hb with h | h
      · exact hnone h
      · rw [h, index_of_sameBackend hhome hsame]
    rw [hall hb, hall hb']
  · rcases List.mem_cons.mp (List.mem_filter.mp hg).1 with rfl | htenant
    · have hglobal : ∀ {p : ℕ} {b : Want}, p ∈ (List.range (L.wants r).length).filter
          (fun i => !((L.wants r)[i]?.bind fun w => keyTenant w.key).isSome) →
          (L.wants r)[p]? = some b → D.backendIndex (some b.key) = some 0 := by
        intro p b hp hb
        refine hnone ?_
        simpa [hb] using (List.mem_filter.mp hp).2
      rw [hglobal hp hb, hglobal hq hb']
    · obtain rfl := List.mem_singleton.mp htenant
      have hregional : ∀ {p : ℕ} {b : Want}, p ∈ (List.range (L.wants r).length).filter
          (fun i => ((L.wants r)[i]?.bind fun w => keyTenant w.key).isSome) → (L.wants r)[p]? = some b →
          D.backendIndex (some b.key) = some (D.index (region.getD HOME_REGION)) := by
        intro p b hp hb
        have hsome : (keyTenant b.key).isSome = true := by simpa [hb] using (List.mem_filter.mp hp).2
        rcases hcounter hb with h | h
        · rw [h] at hsome
          cases hsome
        · exact h
      rw [hregional hp hb, hregional hq hb']

lemma length_group {L : Limits} {r : Request} {cluster : Bool} {D : Deployment} {region : Option String}
    {g : List ℕ} (hg : g ∈ groups cluster D region (L.wants r)) : g.length ≤ 3 := by
  have hflat : g.length ≤ (groups cluster D region (L.wants r)).flatten.length := by
    obtain ⟨before, after, heq⟩ := List.append_of_mem hg
    rw [heq, List.flatten_append, List.flatten_cons, List.length_append, List.length_append]
    omega
  rw [(groups_perm ..).length_eq, List.length_range] at hflat
  exact hflat.trans (length_wants L r)

/-- **A script call reaches its keys.**  Where the tenant of a request is in the region it was read with, the
Valkey that a script call is sent to is the one that each of its keys is on. -/
theorem script_reaches_its_keys (L : Limits) (r : Request) (sha : String) (cluster : Bool) (D : Deployment)
    (region : Option String) (hhome : HOME_REGION ∉ D.regions)
    (hplaced : ∀ t ∈ r.tenant, D.locate t = some (region.getD HOME_REGION))
    (g : List ℕ) (hg : g ∈ groups cluster D region (L.wants r)) (p : ℕ) (hp : p ∈ g) (b : Want)
    (hb : (L.wants r)[p]? = some b) :
    D.connFor (callOf sha (L.wants r) g) = D.backendIndex (some b.key) := by
  have hmem : b ∈ g.filterMap ((L.wants r)[·]?) := List.mem_filterMap.mpr ⟨p, hp, hb⟩
  obtain ⟨first, rest, hcalled⟩ := List.exists_cons_of_ne_nil (List.ne_nil_of_mem hmem)
  have hlen : (first :: rest).length ≤ 3 := by
    rw [← hcalled]
    exact (List.length_filterMap_le ..).trans (length_group hg)
  have hfirst : first ∈ g.filterMap ((L.wants r)[·]?) := hcalled ▸ List.mem_cons_self
  obtain ⟨q, hq, hfirst⟩ := List.mem_filterMap.mp hfirst
  have hcall : callOf sha (L.wants r) g = "EVALSHA" :: sha :: (first.key :: rest.map (·.key)).length.repr ::
      (first.key :: rest.map (·.key) ++ (first :: rest).map (·.windowMs.repr)) := by
    simp [callOf, hcalled]
  rw [hcall, Cache.Routing.connFor_evalsha D (by simp at hlen ⊢; omega)]
  exact backendIndex_group hhome hplaced hg hq hp hfirst hb

def regional : Deployment := ⟨["eu"], fun _ => some "eu"⟩

def sampleLimits : Limits := ⟨⟨true, 600⟩, fun _ => ⟨true, 60, 100, 300, 600, 1000⟩, fun _ => 0⟩

def sampleRequest : Request := .hit (some Uuid128.nil) .token (some "203.0.113.9")

theorem script_reaches_eu :
    regional.connFor (callOf "" (sampleLimits.wants sampleRequest) [1, 2]) =
      regional.backendIndex (some (Cache.Keys.tenantKey Uuid128.nil ["rl", "all"])) :=
  script_reaches_its_keys sampleLimits sampleRequest "" false regional (some "eu") (by decide) (fun _ _ => rfl)
    [1, 2] (by decide +kernel) 2 (by decide) ⟨_, 1000, 60000⟩ (by decide +kernel)

end Ridm.RateLimits
