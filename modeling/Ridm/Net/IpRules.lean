import Mathlib.Data.List.MinMax
import Mathlib.Data.List.Nodup
import Ridm.Core.Uuid128
import Ridm.Net.ClientIp

/-!
# IP rules

`scope_allows` of `api/src/services/ip_rules.rs`: the longest network of a scope that holds the address
decides, and without one the address passes unless the scope has an allow rule.  Reading a network from its
text and writing it are the `ipnet` crate's, and parameters.

The pass over the rules finds the first of the longest networks (`foldl_consider`).  Where the networks of a
scope are distinct, which is what storing them normalized and once each comes to (`distinct_of_stored`), the
first is the only one, and the verdict is a matter of the set of rules (`verdict_iff`).

An IPv4 address that a dual-stack socket reports is an IPv6 address to the rules, and so held by other
networks.  `rules_decide_by_address_iff` is the exact condition for the two spellings to have one verdict.
-/

namespace Ridm.Net

/-- What a rule does with an address. -/
inductive IpRuleAction
  | allow
  | deny
  deriving DecidableEq

/-- `IpRule`: its scope, what it does and its network, as stored. -/
structure IpRule where
  clientId : Option Uuid128
  action : IpRuleAction
  cidr : String

section

variable (parseNet : String → Option IpNet)

/-- A pass of the loop of `scope_allows`: whether there is an allow rule, and the best network so far. -/
def consider (ip : Option IpAddr) (s : Bool × Option (ℕ × IpRuleAction)) (r : IpRule) :
    Bool × Option (ℕ × IpRuleAction) :=
  (s.1 || r.action == .allow,
    match ip with
    | none => s.2
    | some ip =>
        match parseNet r.cidr with
        | none => s.2
        | some net =>
            if net.contains ip && s.2.all (fun best => best.1 < net.prefixLen) then
              some (net.prefixLen, r.action)
            else s.2)

def scopeAllows (rules : List IpRule) (scope : Option Uuid128) (ip : Option IpAddr) : Bool :=
  match (rules.filter (·.clientId = scope)).foldl (consider parseNet ip) (false, none) with
  | (_, some (_, action)) => action == .allow
  | (hasAllow, none) => !hasAllow

/-- `normalize_cidr`; `display` is how a network is written. -/
def normalizeCidr (display : IpNet → String) (raw : String) : Except String String :=
  let s := trim raw
  match parseNet s with
  | some net => .ok (display net.trunc)
  | none =>
      match IpAddr.parseIp s with
      | some ip => .ok (display (IpNet.ofAddr ip).trunc)
      | none => .error ("cidr: " ++ "\x60" ++ s ++ "\x60" ++ " is not an IP address or network")

/-! ## Networks of a scope -/

/-- The networks of a scope, with what their rules do. -/
def networks (rules : List IpRule) (scope : Option Uuid128) : List (IpNet × IpRuleAction) :=
  (rules.filter (·.clientId = scope)).filterMap fun r => (parseNet r.cidr).map (·, r.action)

def DistinctNetworks (rules : List IpRule) (scope : Option Uuid128) : Prop :=
  ((networks parseNet rules scope).map fun e => e.1.trunc).Nodup

def HasAllow (rules : List IpRule) (scope : Option Uuid128) : Prop :=
  ∃ r ∈ rules, r.clientId = scope ∧ r.action = .allow

/-- A network of a scope that holds an address, and is as long as any that does. -/
def Longest (rules : List IpRule) (scope : Option Uuid128) (ip : IpAddr) (e : IpNet × IpRuleAction) : Prop :=
  e ∈ networks parseNet rules scope ∧ e.1.contains ip = true ∧
    ∀ e' ∈ networks parseNet rules scope, e'.1.contains ip = true → e'.1.prefixLen ≤ e.1.prefixLen

/-- Some network of a scope holds an address. -/
def Held (rules : List IpRule) (scope : Option Uuid128) (ip : IpAddr) : Prop :=
  ∃ e ∈ networks parseNet rules scope, e.1.contains ip = true

end

section

variable {parseNet : String → Option IpNet} {rules : List IpRule} {scope : Option Uuid128} {ip : IpAddr}
  {e : IpNet × IpRuleAction}

lemma mem_networks : e ∈ networks parseNet rules scope ↔
    ∃ r ∈ rules, r.clientId = scope ∧ parseNet r.cidr = some e.1 ∧ r.action = e.2 := by
  obtain ⟨net, action⟩ := e
  simp only [networks, List.mem_filterMap, List.mem_filter, decide_eq_true_eq, Option.map_eq_some_iff,
    Prod.mk.injEq, and_assoc]
  constructor
  · rintro ⟨r, hr, hscope, net', hnet, rfl, rfl⟩
    exact ⟨r, hr, hscope, hnet, rfl⟩
  · rintro ⟨r, hr, hscope, hnet, rfl⟩
    exact ⟨r, hr, hscope, net, hnet, rfl, rfl⟩

/-- The networks of rules that hold an address. -/
def holding (parseNet : String → Option IpNet) (ip : IpAddr) (l : List IpRule) :
    List (IpNet × IpRuleAction) :=
  (l.filterMap fun r => (parseNet r.cidr).map (·, r.action)).filter fun e => e.1.contains ip

lemma holding_concat (l : List IpRule) (r : IpRule) : holding parseNet ip (l ++ [r]) =
    holding parseNet ip l ++ holding parseNet ip [r] := by
  rw [holding, List.filterMap_append, List.filter_append, holding, holding]

/-- **The pass.**  It finds the first of the longest networks that hold the address. -/
theorem foldl_consider (l : List IpRule) :
    l.foldl (consider parseNet (some ip)) (false, none) =
      (l.any (·.action == .allow),
        ((holding parseNet ip l).argmax (·.1.prefixLen)).map fun e => (e.1.prefixLen, e.2)) := by
  induction l using List.reverseRecOn with
  | nil => rfl
  | append_singleton l r ih =>
      rw [List.foldl_append, ih, List.foldl_cons, List.foldl_nil, consider, holding_concat, List.any_append]
      refine Prod.ext (by simp) ?_
      cases hnet : parseNet r.cidr with
      | none => simp [holding, hnet]
      | some net =>
          cases hip : net.contains ip with
          | false => simp [holding, hnet, hip]
          | true =>
              have hr : holding parseNet ip [r] = [(net, r.action)] := by simp [holding, hnet, hip]
              rw [hr, List.argmax_concat]
              cases (holding parseNet ip l).argmax (·.1.prefixLen) with
              | none => simp [hip]
              | some e =>
                  by_cases hlt : e.1.prefixLen < net.prefixLen
                  · simp [hip, hlt]
                  · simp [hip, hlt]

lemma holding_filter : holding parseNet ip (rules.filter (·.clientId = scope)) =
    (networks parseNet rules scope).filter fun e => e.1.contains ip := rfl

lemma scopeAllows_eq : scopeAllows parseNet rules scope (some ip) =
    (((networks parseNet rules scope).filter fun e => e.1.contains ip).argmax (·.1.prefixLen)).elim
      (!(rules.filter (·.clientId = scope)).any (·.action == .allow)) fun e => e.2 == .allow := by
  rw [scopeAllows, foldl_consider, holding_filter]
  cases ((networks parseNet rules scope).filter fun e => e.1.contains ip).argmax (·.1.prefixLen) with
  | none => rfl
  | some e => rfl

lemma any_allow_iff : (rules.filter (·.clientId = scope)).any (·.action == .allow) = true ↔
    HasAllow rules scope := by
  simp [HasAllow]

lemma Longest.unique {e' : IpNet × IpRuleAction} (hdistinct : DistinctNetworks parseNet rules scope)
    (h : Longest parseNet rules scope ip e) (h' : Longest parseNet rules scope ip e') : e = e' := by
  obtain ⟨hmem, hip, hle⟩ := h
  obtain ⟨hmem', hip', hle'⟩ := h'
  have hlen : e.1.prefixLen = e'.1.prefixLen := Nat.le_antisymm (hle' e hmem hip) (hle e' hmem' hip')
  exact List.inj_on_of_nodup_map hdistinct hmem hmem' (IpNet.trunc_eq_of_contains hip hip' hlen)

lemma Held.exists_argmax (h : Held parseNet rules scope ip) : ∃ e, Longest parseNet rules scope ip e ∧
    ((networks parseNet rules scope).filter fun e => e.1.contains ip).argmax (·.1.prefixLen) = some e := by
  obtain ⟨e, he, hip⟩ := h
  cases hbest : ((networks parseNet rules scope).filter fun e => e.1.contains ip).argmax (·.1.prefixLen) with
  | none =>
      rw [List.argmax_eq_none, List.filter_eq_nil_iff] at hbest
      exact absurd hip (hbest e he)
  | some b =>
      have hb := List.mem_filter.mp (List.argmax_mem hbest)
      refine ⟨b, ⟨hb.1, hb.2, fun e' he' hip' => ?_⟩, rfl⟩
      exact List.le_of_mem_argmax (f := fun e : IpNet × IpRuleAction => e.1.prefixLen)
        (List.mem_filter.mpr ⟨he', hip'⟩) hbest

/-- **A longest network decides.** -/
lemma scopeAllows_of_longest (hdistinct : DistinctNetworks parseNet rules scope)
    (h : Longest parseNet rules scope ip e) :
    scopeAllows parseNet rules scope (some ip) = (e.2 == .allow) := by
  obtain ⟨b, hb, hbest⟩ := Held.exists_argmax ⟨e, h.1, h.2.1⟩
  rw [scopeAllows_eq, hbest, Option.elim_some, Longest.unique hdistinct h hb]

/-- **Without a network that holds the address**, a scope without allow rules lets it pass. -/
lemma scopeAllows_of_not_held (h : ¬ Held parseNet rules scope ip) :
    scopeAllows parseNet rules scope (some ip) = true ↔ ¬ HasAllow rules scope := by
  have hnone : (networks parseNet rules scope).filter (fun e => e.1.contains ip) = [] := by
    rw [List.filter_eq_nil_iff]
    exact fun e he hip => h ⟨e, he, hip⟩
  rw [scopeAllows_eq, hnone, List.argmax_nil, Option.elim_none, Bool.not_eq_true', Bool.eq_false_iff, Ne,
    any_allow_iff]

/-- **The verdict**, by the set of networks of the scope. -/
theorem scopeAllows_iff (hdistinct : DistinctNetworks parseNet rules scope) :
    scopeAllows parseNet rules scope (some ip) = true ↔
      (∃ e, Longest parseNet rules scope ip e ∧ e.2 = .allow) ∨
        ¬ Held parseNet rules scope ip ∧ ¬ HasAllow rules scope := by
  by_cases hheld : Held parseNet rules scope ip
  · obtain ⟨e, he, -⟩ := hheld.exists_argmax
    rw [scopeAllows_of_longest hdistinct he, beq_iff_eq]
    constructor
    · exact fun hallow => .inl ⟨e, he, hallow⟩
    · rintro (⟨e', he', hallow⟩ | ⟨hnot, -⟩)
      · rwa [Longest.unique hdistinct he he']
      · exact absurd hheld hnot
  · rw [scopeAllows_of_not_held hheld]
    constructor
    · exact fun hnone => .inr ⟨hheld, hnone⟩
    · rintro (⟨e, he, -⟩ | ⟨-, hnone⟩)
      · exact absurd ⟨e, he.1, he.2.1⟩ hheld
      · exact hnone

/-! ## Order, other scopes and spellings -/

lemma networks_perm {rules' : List IpRule} (h : rules'.Perm rules) :
    (networks parseNet rules' scope).Perm (networks parseNet rules scope) :=
  (h.filter _).filterMap _

/-- **The order of the rules does not matter.** -/
theorem scopeAllows_perm {rules' : List IpRule} (hdistinct : DistinctNetworks parseNet rules scope)
    (h : rules'.Perm rules) : scopeAllows parseNet rules' scope (some ip) =
      scopeAllows parseNet rules scope (some ip) := by
  have hmem : ∀ e, e ∈ networks parseNet rules' scope ↔ e ∈ networks parseNet rules scope :=
    fun e => (networks_perm h).mem_iff
  have hdistinct' : DistinctNetworks parseNet rules' scope :=
    ((networks_perm h).map _).nodup_iff.mpr hdistinct
  rw [Bool.eq_iff_iff, scopeAllows_iff hdistinct', scopeAllows_iff hdistinct]
  simp only [Longest, Held, HasAllow, hmem, h.mem_iff]

/-- **Rules of other scopes do not matter.** -/
theorem scopeAllows_of_filter {rules' : List IpRule} {ip : Option IpAddr}
    (h : rules'.filter (·.clientId = scope) = rules.filter (·.clientId = scope)) :
    scopeAllows parseNet rules' scope ip = scopeAllows parseNet rules scope ip := by
  rw [scopeAllows, scopeAllows, h]

variable (parseNet rules scope) in
/-- The condition: in a scope with an allow rule, the longest network that holds an IPv4 address and the
longest that holds what it is mapped to are both of allow rules or neither is; in one without, networks hold
both or neither. -/
def SpellingsAgree (a : BitVec 32) : Prop :=
  (HasAllow rules scope →
    ((∃ e, Longest parseNet rules scope (.v4 a) e ∧ e.2 = .allow) ↔
      ∃ e, Longest parseNet rules scope (.mapped a) e ∧ e.2 = .allow)) ∧
  (¬ HasAllow rules scope → (Held parseNet rules scope (.v4 a) ↔ Held parseNet rules scope (.mapped a)))

lemma allow_of_longest (h : Longest parseNet rules scope ip e) (hallow : e.2 = .allow) :
    HasAllow rules scope := by
  obtain ⟨r, hr, hscope, -, haction⟩ := mem_networks.mp h.1
  exact ⟨r, hr, hscope, haction.trans hallow⟩

/-- **One verdict for both spellings.** -/
lemma spellingsAgree_iff (hdistinct : DistinctNetworks parseNet rules scope) (a : BitVec 32) :
    scopeAllows parseNet rules scope (some (.v4 a)) = scopeAllows parseNet rules scope (some (.mapped a)) ↔
      SpellingsAgree parseNet rules scope a := by
  rw [Bool.eq_iff_iff, scopeAllows_iff hdistinct, scopeAllows_iff hdistinct, SpellingsAgree]
  by_cases hallow : HasAllow rules scope
  · simp only [hallow, not_true_eq_false, and_false, or_false, true_implies, false_implies, and_true]
  · have hnone : ∀ ip, ¬ ∃ e, Longest parseNet rules scope ip e ∧ e.2 = .allow :=
      fun ip ⟨e, he, hall⟩ => hallow (allow_of_longest he hall)
    simp only [hallow, hnone, false_or, not_false_eq_true, and_true, false_implies, true_implies, true_and,
      not_iff_not]

variable (parseNet rules scope ip) in
/-- **The rules decide by address**: the longest network of the scope that holds it, and without one
whether the scope has an allow rule; not the order of the rules, rules of other scopes, or the spelling of
an IPv4 address. -/
structure DecideByAddress : Prop where
  longest : ∀ e, Longest parseNet rules scope ip e →
    scopeAllows parseNet rules scope (some ip) = (e.2 == .allow)
  otherwise : ¬ Held parseNet rules scope ip →
    (scopeAllows parseNet rules scope (some ip) = true ↔ ¬ HasAllow rules scope)
  order : ∀ rules', rules'.Perm rules →
    scopeAllows parseNet rules' scope (some ip) = scopeAllows parseNet rules scope (some ip)
  scopes : ∀ rules', rules'.filter (·.clientId = scope) = rules.filter (·.clientId = scope) →
    scopeAllows parseNet rules' scope (some ip) = scopeAllows parseNet rules scope (some ip)
  spelling : ∀ a, ip = .v4 a ∨ ip = .mapped a →
    scopeAllows parseNet rules scope (some (.v4 a)) = scopeAllows parseNet rules scope (some (.mapped a))

/-- **The exact condition.**  Rules whose networks are distinct decide by address exactly if the two
spellings of the address, where it is an IPv4 address, agree. -/
theorem rules_decide_by_address_iff (parseNet : String → Option IpNet) (rules : List IpRule)
    (scope : Option Uuid128) (ip : IpAddr) (hdistinct : DistinctNetworks parseNet rules scope) :
    DecideByAddress parseNet rules scope ip ↔
      ∀ a, ip = .v4 a ∨ ip = .mapped a → SpellingsAgree parseNet rules scope a := by
  constructor
  · exact fun h a ha => (spellingsAgree_iff hdistinct a).mp (h.spelling a ha)
  · intro h
    exact {
      longest := fun e he => scopeAllows_of_longest hdistinct he
      otherwise := scopeAllows_of_not_held
      order := fun rules' hperm => scopeAllows_perm hdistinct hperm
      scopes := fun rules' hfilter => scopeAllows_of_filter hfilter
      spelling := fun a ha => (spellingsAgree_iff hdistinct a).mpr (h a ha) }

end

def deniedNetwork : IpRule := ⟨none, .deny, "203.0.113.0/24"⟩

def deniedMapped : IpRule := ⟨none, .deny, "::ffff:203.0.113.0/120"⟩

theorem rules_decide_by_address_twins :
    DecideByAddress IpNet.parse [deniedNetwork, deniedMapped] none (.v4 0xCB007107#32) := by
  have hdistinct : DistinctNetworks IpNet.parse [deniedNetwork, deniedMapped] none := by
    unfold DistinctNetworks
    decide +kernel
  refine (rules_decide_by_address_iff IpNet.parse _ none _ hdistinct).mpr fun a ha => ?_
  obtain rfl : a = 0xCB007107#32 := by
    rcases ha with h | h
    · cases h
      rfl
    · cases h
  have hnone : ¬ HasAllow [deniedNetwork, deniedMapped] none := by
    unfold HasAllow
    decide
  refine ⟨fun hallow => absurd hallow hnone, fun _ => iff_of_true ?_ ?_⟩
  · unfold Held
    decide +kernel
  · unfold Held
    decide +kernel

/-- A dual-stack socket reports an address of the network as an IPv6 address, and the rule does not hold
it. -/
theorem mapped_address_passes :
    clientIpAddr [] ⟨[], []⟩ (some (.mapped 0xCB007107#32)) = some (.mapped 0xCB007107#32) ∧
      ¬ DecideByAddress IpNet.parse [deniedNetwork] none (.mapped 0xCB007107#32) := by
  refine ⟨rfl, fun h => ?_⟩
  have hone := h.spelling _ (.inr rfl)
  revert hone
  decide +kernel

/-! ## Rules as they are stored -/

section

variable {parseNet : String → Option IpNet} {display : IpNet → String} {rules : List IpRule}
  {scope : Option Uuid128}

lemma normalizeCidr_eq_ok {raw s : String} (h : normalizeCidr parseNet display raw = .ok s) :
    ∃ net : IpNet, s = display net.trunc := by
  rw [normalizeCidr] at h
  split at h
  · cases h
    exact ⟨_, rfl⟩
  · split at h
    · cases h
      exact ⟨_, rfl⟩
    · cases h

/-- **Stored rules have distinct networks**: a network is stored normalized, and once in a scope. -/
theorem distinct_of_stored (hdisplay : ∀ net, parseNet (display net) = some net)
    (hstored : ∀ r ∈ rules, ∃ raw, normalizeCidr parseNet display raw = .ok r.cidr)
    (honce : ((rules.filter (·.clientId = scope)).map (·.cidr)).Nodup) :
    DistinctNetworks parseNet rules scope := by
  have hwritten : ∀ l : List IpRule, l ⊆ rules →
      (l.filterMap fun r => (parseNet r.cidr).map (·, r.action)).map (fun e => display e.1.trunc) =
        l.map (·.cidr) := by
    intro l hl
    induction l with
    | nil => rfl
    | cons r l ih =>
        obtain ⟨hr, hl⟩ := List.cons_subset.mp hl
        obtain ⟨raw, hraw⟩ := hstored r hr
        obtain ⟨net, hnet⟩ := normalizeCidr_eq_ok hraw
        have hread : parseNet r.cidr = some net.trunc := by rw [hnet, hdisplay]
        rw [List.filterMap_cons_some (by rw [hread, Option.map_some]), List.map_cons, List.map_cons, ih hl,
          IpNet.trunc_trunc, hnet]
  have hall := hwritten (rules.filter (·.clientId = scope)) (List.filter_subset_self _)
  rw [← hall] at honce
  refine List.Nodup.of_map display ?_
  rwa [List.map_map]

end

end Ridm.Net
