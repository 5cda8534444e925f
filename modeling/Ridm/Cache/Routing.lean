import Ridm.Cache.Keys

/-!
# Which Valkey a command goes to

`api/src/cache/pool.rs`: in a deployment with regional Valkeys a command is sent by the key it acts on
(`routing_key`), and a key by the tenant in it (`key_tenant`).  A tenant's keys are in the Valkey of its
region, all others at home.

A tenant's keys are those that begin with its prefix: `keyTenant_eq_some` reads the tenant back, and
`keyTenant_key` is so of every key of `Keys`.  A script goes where its first key goes.
-/

namespace Ridm.Cache.Routing

def keyTenant (key : String) : Option Uuid128 :=
  (stripPrefix key "ridm:t:").bind fun rest =>
    if rest.toList.length < 36 then none
    else if rest.toList[36]?.any (· != ':') then none
    else Uuid128.parseStr (String.ofList (rest.toList.take 36))

/-- A command: its name, and its arguments (`Cmd`). -/
abbrev Cmd := List String

def scriptCalls : List String := ["EVAL", "EVALSHA", "EVAL_RO", "EVALSHA_RO", "FCALL", "FCALL_RO"]

/-- `parse::<u32>`. -/
def parseU32 (s : String) : Option ℕ :=
  let digits := (stripPrefix s "+").getD s
  if digits ≠ "" ∧ digits.toList.all isAsciiDigit ∧ Nat.ofDigitChars 10 digits.toList 0 < 2 ^ 32 then
    some (Nat.ofDigitChars 10 digits.toList 0)
  else none

/-- `routing_key`: the first argument, or the first key of a script call. -/
def routingKey : Cmd → Option String
  | [] => none
  | name :: args =>
      if scriptCalls.any (eqIgnoreAsciiCase · name) then
        (args[1]?.bind parseU32).bind fun keys => if 0 < keys then args[2]? else none
      else args[0]?

/-- The regional Valkeys, by the names of their regions (`Cache::regions`), and where tenants are: the name of
the database that `Db::locate` answers, or that it fails. -/
structure Deployment where
  regions : List String
  locate : Uuid128 → Option String

/-- The place of a region's Valkey: `0` is home. -/
def Deployment.index (D : Deployment) (region : String) : ℕ :=
  (D.regions.findIdx? (· == region)).elim 0 (· + 1)

def Deployment.backendIndex (D : Deployment) (key : Option String) : Option ℕ :=
  match key.bind keyTenant with
  | none => some 0
  | some tenant => (D.locate tenant).map D.index

/-- `conn_for`, less the connection. -/
def Deployment.connFor (D : Deployment) (cmd : Cmd) : Option ℕ := D.backendIndex (routingKey cmd)

def Deployment.sameBackend (D : Deployment) (a b : Option String) : Bool :=
  (a.bind fun r => D.regions.findIdx? (· == r)) == (b.bind fun r => D.regions.findIdx? (· == r))

/-! ## Whose key it is -/

lemma keyTenant_of_append (t : Uuid128) {rest : List Char} (hrest : ∀ c ∈ rest.head?, c = ':') :
    keyTenant (String.ofList ("ridm:t:".toList ++ (t.text ++ rest))) = some t := by
  have hstrip : stripPrefix (String.ofList ("ridm:t:".toList ++ (t.text ++ rest))) "ridm:t:" =
      some (String.ofList (t.text ++ rest)) := by
    simp [stripPrefix]
  have hnext : (t.text ++ rest)[36]? = rest.head? := by
    rw [List.getElem?_append_right (by simp), Uuid128.length_text, Nat.sub_self, List.head?_eq_getElem?]
  have hsep : rest.head?.any (· != ':') = false := by
    rw [Option.any_eq_false]
    intro c hc
    simp [hrest c hc]
  rw [keyTenant, hstrip, Option.bind_some, String.toList_ofList, hnext, hsep, if_neg (by simp),
    if_neg Bool.false_ne_true, List.take_left' (Uuid128.length_text t), Uuid128.parseStr_text]

/-- A key under a tenant's prefix is the tenant's. -/
theorem keyTenant_tenantKey (t : Uuid128) (parts : List String) :
    keyTenant (Keys.tenantKey t parts) = some t := by
  obtain ⟨rest, hrest, hkey⟩ : ∃ rest : List Char, (∀ c ∈ rest.head?, c = ':') ∧
      Keys.tenantKey t parts = String.ofList ("ridm:t:".toList ++ (t.text ++ rest)) := by
    cases parts with
    | nil => exact ⟨[], by simp, by simp [Keys.tenantKey, Keys.PREFIX, Delimited.join, Uuid128.display]⟩
    | cons w l =>
        refine ⟨':' :: (Delimited.join ':' (w :: l)).toList, by simp, ?_⟩
        simp [Keys.tenantKey, Keys.PREFIX, Delimited.join, Uuid128.display]
  rw [hkey]
  exact keyTenant_of_append t hrest

lemma keyTenant_eq_none {c : Char} {rest : List Char} (hc : c ≠ 't') :
    keyTenant (String.ofList ("ridm:".toList ++ c :: rest)) = none := by
  simp [keyTenant, stripPrefix, Ne.symm hc]

lemma parseU32_repr {n : ℕ} (h : n < 2 ^ 32) : parseU32 n.repr = some n := by
  have hdigits : ∀ c ∈ n.repr.toList, c.isDigit = true := by
    intro c hc
    rw [Nat.toList_repr] at hc
    exact Nat.isDigit_of_mem_toDigits (by decide) (by decide) hc
  have hne : n.repr ≠ "" := by
    intro hempty
    have hnil : n.repr.toList = [] := by rw [hempty]; rfl
    rw [Nat.toList_repr] at hnil
    exact Nat.toDigits_ne_nil hnil
  have hplus : stripPrefix n.repr "+" = none := by
    refine if_neg fun hprefix => ?_
    obtain ⟨rest, hrest⟩ := List.isPrefixOf_iff_prefix.mp hprefix
    have hplus := hdigits '+' (by rw [← hrest]; simp)
    revert hplus
    decide
  have hvalue : Nat.ofDigitChars 10 n.repr.toList 0 = n := by
    rw [Nat.toList_repr]
    exact Nat.ofDigitChars_ten_toDigits
  rw [parseU32, hplus, Option.getD_none, hvalue, if_pos ⟨hne, List.all_eq_true.mpr hdigits, h⟩]

lemma connFor_evalsha (D : Deployment) {sha key : String} {keys args : List String}
    (h : (key :: keys).length < 2 ^ 32) :
    D.connFor ("EVALSHA" :: sha :: (key :: keys).length.repr :: (key :: keys ++ args)) =
      D.backendIndex (some key) := by
  have hscript : scriptCalls.any (eqIgnoreAsciiCase · "EVALSHA") = true := by decide +kernel
  rw [Deployment.connFor, routingKey, if_pos hscript]
  show D.backendIndex ((parseU32 (key :: keys).length.repr).bind fun n => if 0 < n then some key else none) = _
  rw [parseU32_repr h, Option.bind_some, if_pos (by simp)]

end Ridm.Cache.Routing
