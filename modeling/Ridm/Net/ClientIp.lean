import Ridm.Core.Text
import Ridm.Lib.IpAddress

/-!
# The client's address behind reverse proxies

`client_ip_addr` of `api/src/middleware/client_ip.rs`.  When the peer is a trusted proxy, the first
`X-Forwarded-For` line is read from the right and the first address that is not a proxy's is the client;
without an answer there the first `Forwarded` line is read, and without one there the peer is the client.

A header may have several lines, and the code reads the first one (`HeaderMap::get`).  A request that comes
through a chain of proxies has the caller's own lines in front (`deliver`): a proxy writes what it saw at
the end of the last `X-Forwarded-For` line, or in a line behind it.  So what the outermost proxy saw is in
the first line only where the caller sent none, or one and the outermost proxy wrote into that.
`client_ip_of_chain` is the exact condition: there, and where the caller's own lines name the caller.
-/

namespace Ridm.Net

/-- The value of a header line, by its octets. -/
abbrev HeaderValue := List UInt8

/-- The lines of the two headers, in the order in which they came. -/
structure HeaderMap where
  xForwardedFor : List HeaderValue
  forwarded : List HeaderValue

/-- An octet that `HeaderValue::to_str` lets through. -/
def isVisibleAscii (b : UInt8) : Bool := (32 ≤ b.toNat && b.toNat < 127) || b.toNat == 9

/-- `HeaderValue::to_str`. -/
def toStr (v : HeaderValue) : Option String :=
  if v.all isVisibleAscii then some (String.ofList (v.map fun b => Char.ofNat b.toNat)) else none

def parseNode (node : String) : Option IpAddr :=
  match IpAddr.parseIp node with
  | some ip => some ip
  | none =>
      match stripPrefix node "[" with
      | some rest => (splitOnce rest ']').bind fun p => IpAddr.parseIp p.1
      | none => (rsplitOnce node ':').bind fun p => IpAddr.parseIp p.1

def forwardedForList (value : String) : List (Option IpAddr) :=
  (split value ',').map fun s => parseNode (trim s)

/-- The address of a `for=` parameter. -/
def forParameter (pair : String) : Option IpAddr := do
  let (k, v) ← splitOnce (trim pair) '='
  if eqIgnoreAsciiCase (trim k) "for" then parseNode (trimMatches (trim v) '"') else none

def forwardedList (value : String) : List (Option IpAddr) :=
  (split value ',').map fun element => (split element ';').findSome? forParameter

section

variable (isProxy : IpAddr → Bool)

/-- The walk of `rightmost_untrusted`, over what is left of the chain in reverse. -/
def walk : Option IpAddr → List (Option IpAddr) → Option IpAddr
  | last, [] => last
  | _, none :: _ => none
  | _, some ip :: rest => if isProxy ip then walk (some ip) rest else some ip

def rightmostUntrusted (chain : List (Option IpAddr)) : Option IpAddr := walk isProxy none chain.reverse

/-- What one header says, by its first line. -/
def firstLine (list : String → List (Option IpAddr)) (lines : List HeaderValue) : Option IpAddr :=
  (lines.head?.bind toStr).bind fun v => rightmostUntrusted isProxy (list v)

end

def clientIpAddr (trustedProxies : List IpNet) (headers : HeaderMap) (peerIp : Option IpAddr) :
    Option IpAddr :=
  let isProxy := fun ip => trustedProxies.any fun net => net.contains ip
  if peerIp.any isProxy then
    (firstLine isProxy forwardedForList headers.xForwardedFor).or
      ((firstLine isProxy forwardedList headers.forwarded).or peerIp)
  else peerIp

/-! ## Proxies -/

/-- How a proxy adds an address: at the end of the last line, or as a further one. -/
inductive Mode
  | append
  | further

/-- A proxy on the way of a request: its own address, how it adds and what it writes. -/
structure Hop where
  address : IpAddr
  mode : Mode
  text : HeaderValue

/-- The address is written so that it can be read, in an entry of its own. -/
structure Hop.Writes (h : Hop) (seen : IpAddr) : Prop where
  visible : h.text.all isVisibleAscii = true
  plain : (44 : UInt8) ∉ h.text
  reads : ∀ s ∈ toStr h.text, parseNode (trim s) = some seen

/-- Some text at the end of the last line, or in a first one. -/
def appendLast (text : HeaderValue) : List HeaderValue → List HeaderValue
  | [] => [text]
  | [line] => [line ++ 44 :: text]
  | line :: lines => line :: appendLast text lines

/-- What a proxy makes of the lines. -/
def Hop.forwards (h : Hop) (lines : List HeaderValue) : List HeaderValue :=
  match h.mode with
  | .append => appendLast h.text lines
  | .further => lines ++ [h.text]

/-- The lines behind a chain of proxies. -/
def deliver (hops : List Hop) (lines : List HeaderValue) : List HeaderValue :=
  hops.foldl (fun lines h => h.forwards lines) lines

/-- Every proxy writes the address it received the request from. -/
def Honest : IpAddr → List Hop → Prop
  | _, [] => True
  | seen, h :: hops => h.Writes seen ∧ Honest h.address hops

/-! ## Reading from the right -/

section

variable {isProxy : IpAddr → Bool} {chain : List (Option IpAddr)} {c : IpAddr}

/-- **Where the walk from the right ends**: at an entry behind which there are proxies only. -/
def EndsIn (isProxy : IpAddr → Bool) (chain : List (Option IpAddr)) (e : Option IpAddr) : Prop :=
  ∃ before after, chain = before ++ e :: after ∧ ∀ x ∈ after, ∃ ip ∈ x, isProxy ip = true

lemma endsIn_concat {x e : Option IpAddr} :
    EndsIn isProxy (chain ++ [x]) e ↔ x = e ∨ (∃ ip ∈ x, isProxy ip = true) ∧ EndsIn isProxy chain e := by
  constructor
  · rintro ⟨before, after, heq, hafter⟩
    rcases List.eq_nil_or_concat after with rfl | ⟨after, y, rfl⟩
    · exact .inl (List.append_inj_right' heq rfl |> List.head_eq_of_cons_eq)
    · rw [List.concat_eq_append, ← List.cons_append, ← List.append_assoc] at heq
      obtain ⟨rfl, hlast⟩ := List.append_inj' heq rfl
      obtain rfl := List.head_eq_of_cons_eq hlast
      rw [List.concat_eq_append, List.forall_mem_append] at hafter
      exact .inr ⟨hafter.2 x List.mem_cons_self, before, after, rfl, hafter.1⟩
  · rintro (rfl | ⟨hproxy, before, after, rfl, hafter⟩)
    · exact ⟨chain, [], rfl, fun _ h => absurd h List.not_mem_nil⟩
    · refine ⟨before, after ++ [x], by simp, ?_⟩
      rw [List.forall_mem_append]
      exact ⟨hafter, fun y hy => by rwa [List.mem_singleton.mp hy]⟩

lemma not_endsIn_nil {e : Option IpAddr} : ¬ EndsIn isProxy [] e := by
  rintro ⟨before, after, heq, -⟩
  simp at heq

lemma EndsIn.append {e : Option IpAddr} {extra : List (Option IpAddr)} (h : EndsIn isProxy chain e)
    (hextra : ∀ x ∈ extra, ∃ ip ∈ x, isProxy ip = true) : EndsIn isProxy (chain ++ extra) e := by
  obtain ⟨before, after, rfl, hafter⟩ := h
  refine ⟨before, after ++ extra, by simp, ?_⟩
  rw [List.forall_mem_append]
  exact ⟨hafter, hextra⟩

lemma walk_eq_some (last : Option IpAddr) (hc : isProxy c = false) (hlast : ∀ ip ∈ last, isProxy ip = true) :
    walk isProxy last chain.reverse = some c ↔ EndsIn isProxy chain (some c) := by
  induction chain using List.reverseRecOn generalizing last with
  | nil =>
      refine iff_of_false (fun h => ?_) not_endsIn_nil
      rw [hlast c h] at hc
      cases hc
  | append_singleton chain x ih =>
      rw [List.reverse_append, List.reverse_singleton, List.singleton_append, endsIn_concat]
      cases x with
      | none => simp [walk]
      | some ip =>
          rw [walk]
          cases hip : isProxy ip with
          | true =>
              have hne : ip ≠ c := by
                rintro rfl
                rw [hip] at hc
                cases hc
              rw [if_pos rfl, ih (some ip) fun ip' hip' => by rwa [← Option.some.inj hip']]
              simp [hip, hne]
          | false => simp [hip]

lemma walk_eq_none (last : Option IpAddr) (hlast : last.isSome = true ∨ chain ≠ []) :
    walk isProxy last chain.reverse = none ↔ EndsIn isProxy chain none := by
  induction chain using List.reverseRecOn generalizing last with
  | nil =>
      refine iff_of_false (fun h => ?_) not_endsIn_nil
      rw [show last = none from h] at hlast
      rcases hlast with hlast | hlast
      · cases hlast
      · exact hlast rfl
  | append_singleton chain x ih =>
      rw [List.reverse_append, List.reverse_singleton, List.singleton_append, endsIn_concat]
      cases x with
      | none => simp [walk]
      | some ip =>
          rw [walk]
          cases hip : isProxy ip with
          | true =>
              rw [if_pos rfl, ih (some ip) (.inl rfl)]
              simp [hip]
          | false => simp [hip]

/-! ## What the lines say -/

/-- The caller's own lines name it: the first `X-Forwarded-For` line does, or the first `Forwarded` line
where nothing can be read from the other. -/
def Names (isProxy : IpAddr → Bool) (headers : HeaderMap) (c : IpAddr) : Prop :=
  (∃ v ∈ headers.xForwardedFor.head?, ∃ s ∈ toStr v, EndsIn isProxy (forwardedForList s) (some c)) ∨
    (∀ v ∈ headers.xForwardedFor.head?, ∀ s ∈ toStr v, EndsIn isProxy (forwardedForList s) none) ∧
      ∃ v ∈ headers.forwarded.head?, ∃ s ∈ toStr v, EndsIn isProxy (forwardedList s) (some c)

variable {lines : List HeaderValue} {s : String}

lemma firstLine_eq_some {list : String → List (Option IpAddr)}
    (hc : isProxy c = false) : firstLine isProxy list lines = some c ↔
      ∃ v ∈ lines.head?, ∃ s ∈ toStr v, EndsIn isProxy (list s) (some c) := by
  simp only [firstLine, Option.bind_eq_some_iff, rightmostUntrusted,
    walk_eq_some none hc (fun _ h => by cases h), Option.mem_def]
  constructor
  · rintro ⟨s, ⟨v, hv, hs⟩, h⟩
    exact ⟨v, hv, s, hs, h⟩
  · rintro ⟨v, hv, s, hs, h⟩
    exact ⟨s, ⟨v, hv, hs⟩, h⟩

lemma firstLine_eq_none {list : String → List (Option IpAddr)}
    (hlist : ∀ s, list s ≠ []) : firstLine isProxy list lines = none ↔
      ∀ v ∈ lines.head?, ∀ s ∈ toStr v, EndsIn isProxy (list s) none := by
  simp only [firstLine, Option.bind_eq_none_iff, Option.bind_eq_some_iff, rightmostUntrusted,
    walk_eq_none none (.inr (hlist _)), Option.mem_def]
  constructor
  · intro h v hv s hs
    exact h s ⟨v, hv, hs⟩
  · rintro h s ⟨v, hv, hs⟩
    exact h v hv s hs

lemma forwardedForList_ne_nil (s : String) : forwardedForList s ≠ [] := by
  simp [forwardedForList, split, List.splitOn_ne_nil]

/-- **What is answered for an address that is not a proxy's**, behind a proxy. -/
lemma clientIpAddr_eq_some {nets : List IpNet} {headers : HeaderMap} {peer : IpAddr}
    (hpeer : (nets.any fun net => net.contains peer) = true)
    (hc : (nets.any fun net => net.contains c) = false) :
    clientIpAddr nets headers (some peer) = some c ↔
      Names (fun ip => nets.any fun net => net.contains ip) headers c := by
  have hne : peer ≠ c := by
    rintro rfl
    rw [hpeer] at hc
    cases hc
  rw [clientIpAddr, Option.any_some, if_pos hpeer, Option.or_eq_some_iff, Option.or_eq_some_iff,
    firstLine_eq_some hc, firstLine_eq_none forwardedForList_ne_nil, firstLine_eq_some hc, Names]
  simp [hne]

end

/-! ## What a chain of proxies leaves in the first line -/

section

variable {isProxy : IpAddr → Bool} {hops : List Hop} {seen : IpAddr}

lemma forwards_two_lines (h : Hop) (x y : HeaderValue) (lines : List HeaderValue) :
    ∃ y' lines', h.forwards (x :: y :: lines) = x :: y' :: lines' := by
  rw [Hop.forwards]
  cases h.mode with
  | append =>
      cases lines with
      | nil => exact ⟨_, _, rfl⟩
      | cons z lines => exact ⟨_, _, rfl⟩
  | further => exact ⟨y, lines ++ [h.text], rfl⟩

/-- **Of two lines or more the first one stays.** -/
lemma head_deliver {x y : HeaderValue} :
    (deliver hops (x :: y :: lines)).head? = some x := by
  induction hops generalizing y lines with
  | nil => rfl
  | cons h hops ih =>
      obtain ⟨y', lines', heq⟩ := forwards_two_lines h x y lines
      rw [deliver, List.foldl_cons, heq]
      exact ih

lemma toStr_append {v w : HeaderValue} (hv : toStr v = some s)
    (hw : w.all isVisibleAscii = true) : ∃ u, toStr w = some u ∧ toStr (v ++ 44 :: w) = some (s ++ "," ++ u) := by
  simp only [toStr, Option.ite_none_right_eq_some, Option.some.injEq] at hv ⊢
  obtain ⟨hall, rfl⟩ := hv
  refine ⟨_, ⟨hw, rfl⟩, ?_, ?_⟩
  · rw [List.all_append, hall, List.all_cons, hw]
    rfl
  · rw [← String.toList_inj]
    simp

lemma toStr_append_eq_none {v w : HeaderValue} (h : toStr v = none) : toStr (v ++ w) = none := by
  simp only [toStr, ite_eq_right_iff, reduceCtorEq, imp_false] at h ⊢
  intro hall
  rw [List.all_append, Bool.and_eq_true] at hall
  exact h hall.1

lemma Hop.Writes.entry {h : Hop} (hw : h.Writes seen) (hs : toStr h.text = some s) :
    forwardedForList s = [some seen] := by
  have hread := hw.reads s hs
  have hplain : ',' ∉ s.toList := by
    simp only [toStr, Option.ite_none_right_eq_some, Option.some.injEq] at hs
    rw [← hs.2, String.toList_ofList]
    intro hmem
    obtain ⟨b, hb, hcomma⟩ := List.mem_map.mp hmem
    have hall : ∀ n < 256, Char.ofNat n = ',' → n = 44 := by decide +kernel
    have h44 : b = 44 := by
      rw [← UInt8.toNat_inj]
      exact hall b.toNat b.toNat_lt hcomma
    rw [h44] at hb
    exact hw.plain hb
  rw [forwardedForList, split, List.splitOn_eq_singleton hplain]
  simp [hread]

lemma forwardedForList_append (s u : String) :
    forwardedForList (s ++ "," ++ u) = forwardedForList s ++ forwardedForList u := by
  rw [forwardedForList, show ("," : String) = String.singleton ',' from rfl, split_append, List.map_append]
  rfl

/-- **One line in front of a chain of proxies**: they add proxies' addresses to it, if they can read it. -/
lemma deliver_single (line : HeaderValue) (hhonest : Honest seen hops) (hseen : isProxy seen = true)
    (hproxies : ∀ h ∈ hops, isProxy h.address = true) :
    ∃ line', (deliver hops [line]).head? = some line' ∧ (toStr line = none → toStr line' = none) ∧
      ∀ s ∈ toStr line, ∃ s' ∈ toStr line', ∃ extra, forwardedForList s' = forwardedForList s ++ extra ∧
        ∀ x ∈ extra, ∃ ip ∈ x, isProxy ip = true := by
  induction hops generalizing seen line with
  | nil => exact ⟨line, rfl, id, fun s hs => ⟨s, hs, [], by simp, fun _ h => absurd h List.not_mem_nil⟩⟩
  | cons h hops ih =>
      rw [List.forall_mem_cons] at hproxies
      obtain ⟨hwrites, hhonest⟩ := hhonest
      rw [deliver, List.foldl_cons, Hop.forwards]
      cases h.mode with
      | further =>
          refine ⟨line, head_deliver, id, fun s hs => ⟨s, hs, [], by simp, fun _ h => absurd h List.not_mem_nil⟩⟩
      | append =>
          obtain ⟨line', hhead, hnone, hsome⟩ := ih (line ++ 44 :: h.text) hhonest hproxies.1 hproxies.2
          refine ⟨line', hhead, fun hline => hnone (toStr_append_eq_none hline), ?_⟩
          intro s hs
          obtain ⟨u, hu, happend⟩ := toStr_append hs hwrites.visible
          obtain ⟨s', hs', extra, heq, hextra⟩ := hsome _ happend
          refine ⟨s', hs', some seen :: extra, ?_, ?_⟩
          · rw [heq, forwardedForList_append, hwrites.entry hu, List.append_assoc, List.singleton_append]
          · rw [List.forall_mem_cons]
            exact ⟨⟨seen, rfl, hseen⟩, hextra⟩

end

/-! ## The exact condition -/

/-- **Where the outermost proxy is believed**: the caller sent no `X-Forwarded-For` line, or one that can be
read and the proxy writes into it; or the caller's own lines name the caller. -/
def Believed (isProxy : IpAddr → Bool) (caller : HeaderMap) (outermost : Hop) (c : IpAddr) : Prop :=
  caller.xForwardedFor = [] ∨
    (outermost.mode = .append ∧ ∃ line, caller.xForwardedFor = [line] ∧ line.all isVisibleAscii = true) ∨
    Names isProxy caller c

section

variable {isProxy : IpAddr → Bool} {caller : HeaderMap} {outermost : Hop} {hops : List Hop} {c : IpAddr}

lemma names_congr (l : List HeaderValue)
    (h : lines.head?.bind toStr = l.head?.bind toStr) {forwarded : List HeaderValue} :
    Names isProxy ⟨lines, forwarded⟩ c ↔ Names isProxy ⟨l, forwarded⟩ c := by
  have hread : ∀ {l : List HeaderValue} {P : String → Prop},
      (∃ v ∈ l.head?, ∃ s ∈ toStr v, P s) ↔ ∃ s ∈ l.head?.bind toStr, P s := by
    intro l P
    simp only [Option.mem_def, Option.bind_eq_some_iff]
    exact ⟨fun ⟨v, hv, s, hs, h⟩ => ⟨s, ⟨v, hv, hs⟩, h⟩, fun ⟨s, ⟨v, hv, hs⟩, h⟩ => ⟨v, hv, s, hs, h⟩⟩
  have hall : ∀ {l : List HeaderValue} {P : String → Prop},
      (∀ v ∈ l.head?, ∀ s ∈ toStr v, P s) ↔ ∀ s ∈ l.head?.bind toStr, P s := by
    intro l P
    simp only [Option.mem_def, Option.bind_eq_some_iff]
    exact ⟨fun h s ⟨v, hv, hs⟩ => h v hv s hs, fun h v hv s hs => h s ⟨v, hv, hs⟩⟩
  simp only [Names, hread, hall, h]

lemma names_of_entry {line : HeaderValue} (chain : List (Option IpAddr))
    (forwarded : List HeaderValue) (hline : toStr line = some s) (hentries : forwardedForList s = chain ++ [some c])
    (hhonest : Honest outermost.address hops) (houtermost : isProxy outermost.address = true)
    (hproxies : ∀ h ∈ hops, isProxy h.address = true) : Names isProxy ⟨deliver hops [line], forwarded⟩ c := by
  obtain ⟨line', hhead, -, hsome⟩ := deliver_single line hhonest houtermost hproxies
  obtain ⟨s', hs', extra, heq, hextra⟩ := hsome s hline
  refine .inl ⟨line', hhead, s', hs', ?_⟩
  rw [heq, hentries]
  exact (endsIn_concat.mpr (.inl rfl)).append hextra

/-- **What the lines say behind the proxies** is what the outermost one saw exactly where it is believed. -/
lemma names_deliver (hhonest : Honest c (outermost :: hops)) (houtermost : isProxy outermost.address = true)
    (hproxies : ∀ h ∈ hops, isProxy h.address = true) :
    Names isProxy ⟨deliver (outermost :: hops) caller.xForwardedFor, caller.forwarded⟩ c ↔
      Believed isProxy caller outermost c := by
  obtain ⟨hwrites, hhonest⟩ := hhonest
  obtain ⟨text, htext⟩ : ∃ text, toStr outermost.text = some text := ⟨_, if_pos hwrites.visible⟩
  rw [deliver, List.foldl_cons, Hop.forwards]
  obtain ⟨lines, forwarded⟩ := caller
  cases lines with
  | nil =>
      -- the outermost proxy begins the first line
      have hnames := names_of_entry [] forwarded htext (hwrites.entry htext) hhonest houtermost hproxies
      refine iff_of_true ?_ (.inl rfl)
      cases outermost.mode with
      | append => exact hnames
      | further => exact hnames
  | cons x lines =>
      cases lines with
      | nil =>
          cases hmode : outermost.mode with
          | further =>
              refine (names_congr [x] ?_).trans ?_
              · exact congrArg (Option.bind · toStr) head_deliver
              · simp [Believed, hmode]
          | append =>
              cases hx : toStr x with
              | none =>
                  obtain ⟨line', hhead, hnone, -⟩ := deliver_single
                    (x ++ 44 :: outermost.text) hhonest houtermost hproxies
                  have hunseen : ¬ x.all isVisibleAscii = true := by
                    intro hall
                    rw [toStr, if_pos hall] at hx
                    cases hx
                  refine (names_congr [x] ?_).trans ?_
                  · show (deliver hops [x ++ 44 :: outermost.text]).head?.bind toStr = _
                    rw [hhead]
                    exact (hnone (toStr_append_eq_none hx)).trans hx.symm
                  · refine ⟨fun h => .inr (.inr h), ?_⟩
                    rintro (hnil | ⟨-, line, heq, hall⟩ | h)
                    · cases hnil
                    · obtain rfl := List.head_eq_of_cons_eq heq
                      exact absurd hall hunseen
                    · exact h
              | some s =>
                  have hall : x.all isVisibleAscii = true := by
                    by_contra hall
                    rw [toStr, if_neg hall] at hx
                    cases hx
                  obtain ⟨u, hu, happend⟩ := toStr_append hx hwrites.visible
                  refine iff_of_true ?_ (.inr (.inl ⟨hmode, x, rfl, hall⟩))
                  refine names_of_entry (forwardedForList s) forwarded happend ?_ hhonest houtermost hproxies
                  rw [forwardedForList_append, hwrites.entry hu]
      | cons y lines =>
          obtain ⟨y', lines', heq⟩ := forwards_two_lines outermost x y lines
          rw [Hop.forwards] at heq
          rw [heq]
          refine (names_congr (x :: y :: lines) ?_).trans ?_
          · exact congrArg (Option.bind · toStr) head_deliver
          · simp [Believed]

end

/-- **The client of a chain of proxies** is the address that the outermost one saw, for exactly the callers
whose lines leave it believed. -/
theorem client_ip_of_chain {trustedProxies : List IpNet} (caller : HeaderMap) {outermost nearest : Hop}
    {hops : List Hop} {c : IpAddr} (hc : (trustedProxies.any fun net => net.contains c) = false)
    (hproxies : ∀ h ∈ outermost :: hops, (trustedProxies.any fun net => net.contains h.address) = true)
    (hhonest : Honest c (outermost :: hops)) (hnearest : (outermost :: hops).getLast? = some nearest) :
    clientIpAddr trustedProxies ⟨deliver (outermost :: hops) caller.xForwardedFor, caller.forwarded⟩
        (some nearest.address) = some c ↔
      Believed (fun ip => trustedProxies.any fun net => net.contains ip) caller outermost c := by
  rw [clientIpAddr_eq_some (hproxies nearest (List.mem_of_getLast? hnearest)) hc]
  rw [List.forall_mem_cons] at hproxies
  exact names_deliver hhonest hproxies.1 hproxies.2

/-! ## A caller that chooses its address -/

def ours : List IpNet := [.v4 0x0A000000#32 8]

def octets (s : String) : HeaderValue := s.toList.map fun c => UInt8.ofNat c.toNat

def balancer : Hop := ⟨.v4 0x0A000001#32, .further, octets "198.51.100.7"⟩

lemma writes_balancer : balancer.Writes (.v4 0xC6336407#32) := ⟨by decide, by decide, by decide⟩

/-- **The caller's line is believed**: 198.51.100.7 sends `203.0.113.9`, and that is the client. -/
theorem caller_chooses_address :
    (¬ ∀ (trustedProxies : List IpNet) (caller : HeaderMap) c outermost hops nearest,
      (trustedProxies.any fun net => net.contains c) = false →
      (∀ h ∈ outermost :: hops, (trustedProxies.any fun net => net.contains h.address) = true) →
      Honest c (outermost :: hops) → (outermost :: hops).getLast? = some nearest →
        clientIpAddr trustedProxies ⟨deliver (outermost :: hops) caller.xForwardedFor, caller.forwarded⟩
          (some nearest.address) = some c) ∧
    clientIpAddr ours ⟨deliver [balancer] [octets "203.0.113.9"], []⟩ (some balancer.address) =
      some (.v4 0xCB007109#32) := by
  refine ⟨fun h => ?_, by decide⟩
  have hbelieved := h ours ⟨[octets "203.0.113.9"], []⟩ (.v4 0xC6336407#32) balancer [] balancer (by decide)
    (by decide) ⟨writes_balancer, trivial⟩ rfl
  exact absurd hbelieved (by decide)

/-- A proxy that appends to the line. -/
def edge : Hop := ⟨.v4 0x0A000002#32, .append, octets "198.51.100.7"⟩

def inner : Hop := ⟨.v4 0x0A000001#32, .further, octets "10.0.0.2"⟩

/-- A proxy that appends to the caller's line is believed, whatever the line says. -/
theorem client_ip_of_chain_balancer :
    clientIpAddr ours ⟨deliver [edge, inner] [octets "203.0.113.9"], []⟩ (some inner.address) =
      some (.v4 0xC6336407#32) := by
  have hhonest : Honest (.v4 0xC6336407#32) [edge, inner] :=
    ⟨⟨by decide, by decide, by decide⟩, ⟨by decide, by decide, by decide⟩, trivial⟩
  exact (client_ip_of_chain ⟨[octets "203.0.113.9"], []⟩ (by decide) (by decide) hhonest rfl).mpr
    (.inr (.inl ⟨rfl, _, rfl, by decide⟩))

end Ridm.Net
