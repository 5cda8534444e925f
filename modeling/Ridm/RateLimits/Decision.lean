import Mathlib.Data.List.MinMax
import Ridm.Cache.Keys

/-!
# The verdict of the rate limiter

`api/src/services/rate_limit.rs`: a request is counted in its buckets (`buckets`), and one pass over the
buckets and their counts makes the decision (`decide`).  The headers of the answer (`withHeaders`, of
`api/src/middleware/guard.rs`) name the tightest bucket.

The pass is the first bucket with the least left and the longest reset of the exceeded ones (`decide_eq`),
so it allows a request exactly when no bucket is exceeded (`allowed_iff`).  A bucket that is exactly at its
limit has as little left as one that is exceeded, nothing, and is named where it comes first:
`verdict_consistent_iff` is the exact condition.
-/

namespace Ridm.RateLimits

/-- `Bucket`: one bucket's state after the request was counted. -/
structure Bucket where
  limit : UInt32
  remaining : UInt32
  resetSecs : ℕ
  exceeded : Bool
  deriving DecidableEq

/-- What the limits say of a request. -/
structure Decision where
  tightest : Option Bucket
  retryAfterSecs : Option ℕ

namespace Decision

def UNLIMITED : Decision := ⟨none, none⟩

/-- `Decision::allowed`. -/
def allowed (d : Decision) : Bool := d.retryAfterSecs.isNone

end Decision

/-- `Want`: a counter, its limit and its window. -/
structure Want where
  key : String
  limit : UInt32
  windowMs : ℕ
  deriving DecidableEq

/-- `u32::try_from(n).unwrap_or(u32::MAX)`. -/
def clampU32 (n : ℕ) : UInt32 := if n < UInt32.size then UInt32.ofNat n else UInt32.ofNat (UInt32.size - 1)

/-- A bucket, as a pass of the loop of `decide` sees it: what was wanted, its count and the milliseconds
left in its window. -/
def bucketOf (x : Want × ℕ × ℕ) : Bucket where
  limit := x.1.limit
  remaining := clampU32 (x.1.limit.toNat - x.2.1)
  resetSecs := max ((x.2.2 + 999) / 1000) 1
  exceeded := x.1.limit.toNat < x.2.1

/-- A pass of the loop of `decide`. -/
def consider (d : Decision) (x : Want × ℕ × ℕ) : Decision where
  tightest :=
    match d.tightest with
    | none => some (bucketOf x)
    | some t => if (bucketOf x).remaining < t.remaining then some (bucketOf x) else some t
  retryAfterSecs :=
    if (bucketOf x).exceeded then
      some (d.retryAfterSecs.elim (bucketOf x).resetSecs fun r => max r (bucketOf x).resetSecs)
    else d.retryAfterSecs

def decide (wants : List Want) (counts : List (ℕ × ℕ)) : Decision :=
  (wants.zip counts).foldl consider .UNLIMITED

/-- `with_headers`: the fields that are set. -/
def withHeaders (d : Decision) : List (String × ℕ) :=
  match d.tightest with
  | some b =>
      [("ratelimit-limit", b.limit.toNat), ("ratelimit-remaining", b.remaining.toNat),
        ("ratelimit-reset", b.resetSecs)]
  | none => []

/-! ## The buckets of a request -/

/-- The limits of a tenant. -/
structure RateLimitPolicy where
  enabled : Bool
  windowSecs : ℕ
  tokenPerIp : UInt32
  authorizePerIp : UInt32
  flowsPerIp : UInt32
  tenantTotal : UInt32

/-- The deployment's own settings (`config.rate_limits`). -/
structure Config where
  enabled : Bool
  ipPerMinute : UInt32

/-- What is counted apart. -/
inductive Category
  | token
  | authorize
  | flows
  deriving DecidableEq

namespace Category

/-- `Category::as_str`. -/
def asStr : Category → String
  | token => "token"
  | authorize => "authorize"
  | flows => "flows"

/-- `Category::per_ip`. -/
def perIp (policy : RateLimitPolicy) : Category → UInt32
  | token => policy.tokenPerIp
  | authorize => policy.authorizePerIp
  | flows => policy.flowsPerIp

end Category

def windowMs (policy : RateLimitPolicy) : ℕ := min (max policy.windowSecs 1) 3600 * 1000

/-- The bucket of an address, where there is a limit and the address is known. -/
def perAddress (limit : UInt32) (ip : Option String) (want : String → Want) : List Want :=
  if 0 < limit then (ip.map want).toList else []

/-- `buckets`, of a tenant with its policy. -/
def buckets (cfg : Config) (tenant : Option (Uuid128 × RateLimitPolicy)) (category : Category)
    (ip : Option String) : List Want :=
  if !cfg.enabled then []
  else
    perAddress cfg.ipPerMinute ip (fun ip =>
      ⟨Delimited.join ':' [Cache.Keys.PREFIX, "rl", "ip", ip], cfg.ipPerMinute, 60000⟩) ++
    match tenant with
    | none => []
    | some (id, policy) =>
        if !policy.enabled then []
        else
          perAddress (category.perIp policy) ip (fun ip =>
            ⟨Cache.Keys.tenantKey id ["rl", category.asStr, "ip", ip], category.perIp policy,
              windowMs policy⟩) ++
          if 0 < policy.tenantTotal then
            [⟨Cache.Keys.tenantKey id ["rl", "all"], policy.tenantTotal, windowMs policy⟩]
          else []

/-! ## What the pass keeps -/

lemma toNat_clampU32 {n : ℕ} (h : n < UInt32.size) : (clampU32 n).toNat = n := by
  rw [clampU32, if_pos h, UInt32.toNat_ofNat_of_lt' h]

@[simp] lemma remaining_bucketOf (x : Want × ℕ × ℕ) :
    (bucketOf x).remaining.toNat = x.1.limit.toNat - x.2.1 :=
  toNat_clampU32 (Nat.lt_of_le_of_lt (Nat.sub_le ..) x.1.limit.toNat_lt)

@[simp] lemma exceeded_bucketOf (x : Want × ℕ × ℕ) :
    (bucketOf x).exceeded = true ↔ x.1.limit.toNat < x.2.1 := by
  simp [bucketOf]

def exceededResets (l : List (Want × ℕ × ℕ)) : List ℕ :=
  ((l.map bucketOf).filter (·.exceeded)).map (·.resetSecs)

lemma exceededResets_concat (l : List (Want × ℕ × ℕ)) (x : Want × ℕ × ℕ) :
    exceededResets (l ++ [x]) =
      exceededResets l ++ if (bucketOf x).exceeded then [(bucketOf x).resetSecs] else [] := by
  rw [exceededResets, List.map_append, List.filter_append, List.map_append]
  cases hx : (bucketOf x).exceeded <;> simp [exceededResets, hx]

lemma max?_concat (l : List ℕ) (n : ℕ) : (l ++ [n]).max? = some (l.max?.elim n fun m => max m n) := by
  cases l with
  | nil => rfl
  | cons a l =>
      rw [List.cons_append, List.max?_cons', List.max?_cons', List.foldl_append]
      rfl

/-- **The pass.**  It finds the first bucket with the least left, and the longest reset of the exceeded
ones. -/
theorem foldl_consider (l : List (Want × ℕ × ℕ)) : l.foldl consider .UNLIMITED =
    ⟨(l.map bucketOf).argmin (·.remaining.toNat), (exceededResets l).max?⟩ := by
  induction l using List.reverseRecOn with
  | nil => rfl
  | append_singleton l x ih =>
      rw [List.foldl_append, ih, List.foldl_cons, List.foldl_nil, consider, List.map_append,
        List.map_singleton, List.argmin_concat, exceededResets_concat]
      congr 1
      · cases (l.map bucketOf).argmin (·.remaining.toNat) with
        | none => rfl
        | some t => simp only [UInt32.lt_iff_toNat_lt]
      · cases hx : (bucketOf x).exceeded with
        | false => simp
        | true => simp [max?_concat]

variable {wants : List Want} {counts : List (ℕ × ℕ)}

theorem decide_eq : decide wants counts =
    ⟨((wants.zip counts).map bucketOf).argmin (·.remaining.toNat),
      (exceededResets (wants.zip counts)).max?⟩ :=
  foldl_consider _

lemma mem_exceededResets {l : List (Want × ℕ × ℕ)} {r : ℕ} :
    r ∈ exceededResets l ↔ ∃ x ∈ l, x.1.limit.toNat < x.2.1 ∧ (bucketOf x).resetSecs = r := by
  simp only [exceededResets, List.mem_map, List.mem_filter, exists_exists_and_eq_and, and_assoc,
    exceeded_bucketOf]

/-- **Allowed**: every count is within its limit. -/
theorem allowed_iff :
    (decide wants counts).allowed = true ↔ ∀ x ∈ wants.zip counts, x.2.1 ≤ x.1.limit.toNat := by
  rw [decide_eq, Decision.allowed, Option.isNone_iff_eq_none, List.max?_eq_none_iff,
    List.eq_nil_iff_forall_not_mem]
  constructor
  · intro h x hx
    by_contra hex
    exact h _ (mem_exceededResets.mpr ⟨x, hx, Nat.lt_of_not_le hex, rfl⟩)
  · intro h r hr
    obtain ⟨x, hx, hex, -⟩ := mem_exceededResets.mp hr
    exact Nat.not_lt_of_le (h x hx) hex

/-! ## The bucket that is named -/

lemma argmin_of_find {α : Type*} {f : α → ℕ} {l : List α} {a : α} (h : l.find? (f · = 0) = some a) :
    l.argmin f = some a := by
  induction l with
  | nil => cases h
  | cons b l ih =>
      rw [List.argmin_cons]
      by_cases hb : f b = 0
      · rw [List.find?_cons_of_pos (by simp [hb]), Option.some.injEq] at h
        subst h
        cases l.argmin f with
        | none => rfl
        | some c => simp [hb]
      · rw [List.find?_cons_of_neg (by simp [hb])] at h
        have ha : f a = 0 := by simpa using List.find?_some h
        rw [ih h]
        simp [ha, Nat.pos_of_ne_zero hb]

/-- **Refused**: the first bucket that has nothing left is named. -/
lemma tightest_of_exceeded (h : ∃ x ∈ wants.zip counts, x.1.limit.toNat < x.2.1) :
    ∃ x, (wants.zip counts).find? (fun x => x.1.limit.toNat ≤ x.2.1) = some x ∧
      (decide wants counts).tightest = some (bucketOf x) := by
  obtain ⟨y, hy, hex⟩ := h
  have hfind : ((wants.zip counts).find? fun x => x.1.limit.toNat ≤ x.2.1).isSome = true :=
    List.find?_isSome.mpr ⟨y, hy, by simpa using Nat.le_of_lt hex⟩
  obtain ⟨x, hx⟩ := Option.isSome_iff_exists.mp hfind
  refine ⟨x, hx, ?_⟩
  rw [decide_eq]
  refine argmin_of_find ?_
  have hleft : ((fun b : Bucket => (b.remaining.toNat = 0 : Bool)) ∘ bucketOf) =
      fun x : Want × ℕ × ℕ => (x.1.limit.toNat ≤ x.2.1 : Bool) := by
    funext x
    simp [Nat.sub_eq_zero_iff_le]
  rw [List.find?_map, hleft, hx]
  rfl

/-- **The verdict is consistent**: it allows what is within every limit, and where it refuses, the client
is told the longest reset of the exceeded buckets, and a bucket with the least left that is exceeded. -/
structure Consistent (wants : List Want) (counts : List (ℕ × ℕ)) : Prop where
  allows : (decide wants counts).allowed = true ↔ ∀ x ∈ wants.zip counts, x.2.1 ≤ x.1.limit.toNat
  retries : (decide wants counts).allowed = false → ∃ r, (decide wants counts).retryAfterSecs = some r ∧
    IsGreatest {s | ∃ x ∈ wants.zip counts, x.1.limit.toNat < x.2.1 ∧ (bucketOf x).resetSecs = s} r
  reports : (decide wants counts).allowed = false → ∃ t, (decide wants counts).tightest = some t ∧
    t ∈ (wants.zip counts).map bucketOf ∧
    (∀ b ∈ (wants.zip counts).map bucketOf, t.remaining ≤ b.remaining) ∧ t.exceeded = true

/-- The condition: where a bucket is exceeded, the first one that has nothing left is. -/
def CauseFirst (l : List (Want × ℕ × ℕ)) : Prop :=
  (∃ x ∈ l, x.1.limit.toNat < x.2.1) →
    ∀ x ∈ l.find? fun x => x.1.limit.toNat ≤ x.2.1, x.1.limit.toNat < x.2.1

lemma exceeded_of_refused (h : (decide wants counts).allowed = false) :
    ∃ x ∈ wants.zip counts, x.1.limit.toNat < x.2.1 := by
  by_contra hnone
  push Not at hnone
  rw [allowed_iff.mpr hnone] at h
  cases h

lemma retry_of_refused (h : (decide wants counts).allowed = false) :
    ∃ r, (decide wants counts).retryAfterSecs = some r ∧ IsGreatest
      {s | ∃ x ∈ wants.zip counts, x.1.limit.toNat < x.2.1 ∧ (bucketOf x).resetSecs = s} r := by
  rw [Decision.allowed, Option.isNone_eq_false_iff, Option.isSome_iff_exists] at h
  obtain ⟨r, hr⟩ := h
  refine ⟨r, hr, ?_⟩
  rw [decide_eq, List.max?_eq_some_iff] at hr
  exact ⟨mem_exceededResets.mp hr.1, fun s hs => hr.2 s (mem_exceededResets.mpr hs)⟩

/-- **The exact condition.**  The verdict is consistent exactly if no bucket that is just at its limit comes
before the exceeded ones. -/
theorem verdict_consistent_iff (wants : List Want) (counts : List (ℕ × ℕ)) :
    Consistent wants counts ↔ CauseFirst (wants.zip counts) := by
  constructor
  · intro h hex x hx
    obtain ⟨x', hx', htightest⟩ := tightest_of_exceeded hex
    obtain rfl := Option.some.inj (hx'.symm.trans hx)
    have hrefused : (decide wants counts).allowed = false := by
      obtain ⟨y, hy, hlt⟩ := hex
      rw [Bool.eq_false_iff, Ne, allowed_iff]
      exact fun hall => Nat.not_lt_of_le (hall y hy) hlt
    obtain ⟨t, ht, -, -, hexceeded⟩ := h.reports hrefused
    obtain rfl := Option.some.inj (htightest.symm.trans ht)
    exact (exceeded_bucketOf x').mp hexceeded
  · intro h
    refine ⟨allowed_iff, retry_of_refused, fun hrefused => ?_⟩
    have hex := exceeded_of_refused hrefused
    obtain ⟨x, hx, htightest⟩ := tightest_of_exceeded hex
    refine ⟨_, htightest, List.mem_map_of_mem (List.mem_of_find?_eq_some hx), ?_, ?_⟩
    · rw [decide_eq] at htightest
      intro b hb
      have hle := List.le_of_mem_argmin (f := fun b : Bucket => b.remaining.toNat) hb htightest
      exact UInt32.le_iff_toNat_le.mpr hle
    · exact (exceeded_bucketOf x).mpr (h hex x hx)

def sampleWants : List Want :=
  buckets ⟨true, 600⟩ (some (Uuid128.nil, ⟨true, 60, 100, 300, 600, 0⟩)) .token (some "203.0.113.9")

/-- An address is at its ceiling for all tenants, and over that of a tenant for the next twelve seconds.  The
headers name the ceiling that it has kept to, which is reset in thirty. -/
theorem headers_name_a_kept_limit : ¬ Consistent sampleWants [(600, 30000), (101, 12000)] := by
  intro h
  obtain ⟨t, ht, -, -, hexceeded⟩ := h.reports (by decide +kernel)
  have htightest : (decide sampleWants [(600, 30000), (101, 12000)]).tightest =
      some ⟨600, 0, 30, false⟩ := by decide +kernel
  obtain rfl := Option.some.inj (htightest.symm.trans ht)
  cases hexceeded

end Ridm.RateLimits
