/-
The client address behind trusted proxies.  `client_ip` reads the hops of
`X-Forwarded-For` from the right and stops at the first one that is not trusted;
the same predicate decides whether the header is read at all.
-/
import NetplexSupport.Auth
import NetplexSupport.RateLimit

namespace NetplexSupport

open Py

/-! ### Comma-separated lists -/

theorem listed_append (p s : Str) : listed (p ++ ch ',' :: s) = listed p ++ listed s := by
  simp only [listed, split_append, List.map_append, List.filter_append]

theorem listed_singleton {v : Str} (hcomma : ch ',' ∉ v) (hstrip : Str.strip v = v)
    (hne : v ≠ []) : listed v = [v] := by
  simp [listed, split_of_notMem hcomma, hstrip, hne]

theorem headerText_append (p s : Bytes) :
    headerText (some (p ++ 44 :: s)) =
      headerText (some p) ++ ch ',' :: headerText (some s) := by
  simp only [headerText, Option.getD_some, decodeLatin1, List.map_append, List.map_cons]
  rfl

theorem decodeLatin1_inj {a b : Bytes} : decodeLatin1 a = decodeLatin1 b ↔ a = b := by
  have hinj : Function.Injective fun b : UInt8 => (Fin.ofNat 0x110000 b.toNat : CodePoint) := by
    intro x y h
    have hx := x.toNat_lt
    have hy := y.toNat_lt
    have hval : x.toNat % 0x110000 = y.toNat % 0x110000 := congrArg Fin.val h
    rw [Nat.mod_eq_of_lt (by omega), Nat.mod_eq_of_lt (by omega)] at hval
    exact UInt8.toNat_inj.mp hval
  exact List.map_inj_right hinj

/-! ### Where the address comes from -/

section

variable (ip : IpAddress) (settings : Settings)

def Request.peer (request : Request) : Str := request.client.getD []

/-- `peer or "unknown"`. -/
def Request.socketPeer (request : Request) : Str :=
  if request.peer = [] then "unknown" else request.peer

/-- The non-empty hops of `X-Forwarded-For`, leftmost first. -/
def Request.hops (request : Request) : List Str := listed (headerText request.xForwardedFor)

/-- The hop after which every other one is trusted. -/
def RightmostUntrusted (hops : List Str) (hop : Str) : Prop :=
  ∃ front back, hops = front ++ hop :: back ∧ peerIsTrusted ip settings hop = false ∧
    ∀ h ∈ back, peerIsTrusted ip settings h = true

/-- How an address is resolved: a stranger's header is not read, a visitor is the
rightmost untrusted hop, and where there is none the peer stays. -/
inductive Resolved (request : Request) : Str → Prop
  | stranger (hpeer : peerIsTrusted ip settings request.peer = false) :
      Resolved request request.socketPeer
  | visitor {hop : Str} (hpeer : peerIsTrusted ip settings request.peer = true)
      (hhop : RightmostUntrusted ip settings request.hops hop) : Resolved request hop
  | insiders (hpeer : peerIsTrusted ip settings request.peer = true)
      (hall : ∀ hop ∈ request.hops, peerIsTrusted ip settings hop = true) :
      Resolved request request.socketPeer

variable {ip settings}

/-- The walk from the right stops at the rightmost untrusted hop. -/
theorem rightmostUntrusted_iff {hops : List Str} {hop : Str} :
    RightmostUntrusted ip settings hops hop ↔
      (hops.reverse.find? fun hop => !peerIsTrusted ip settings hop) = some hop := by
  rw [List.find?_eq_some_iff_append]
  constructor
  · rintro ⟨front, back, rfl, huntrusted, hback⟩
    refine ⟨by rw [huntrusted]; rfl, back.reverse, front.reverse, by simp, ?_⟩
    intro h hmem
    rw [hback h (List.mem_reverse.mp hmem)]
    rfl
  · rintro ⟨huntrusted, back, front, hreverse, hback⟩
    refine ⟨front.reverse, back.reverse, ?_, by simpa using huntrusted, ?_⟩
    · rw [← List.reverse_reverse hops, hreverse]
      simp
    · intro h hmem
      simpa using hback h (List.mem_reverse.mp hmem)

variable (ip settings) in
theorem clientIp_resolved (request : Request) :
    Resolved ip settings request (clientIp ip settings request) := by
  change Resolved ip settings request
    (if !peerIsTrusted ip settings request.peer then request.socketPeer
      else ((request.hops.reverse.find? fun hop =>
        !peerIsTrusted ip settings hop).getD request.socketPeer))
  cases hpeer : peerIsTrusted ip settings request.peer with
  | false => exact Resolved.stranger hpeer
  | true =>
      cases hfind : request.hops.reverse.find? fun hop => !peerIsTrusted ip settings hop with
      | some hop =>
          exact Resolved.visitor hpeer (rightmostUntrusted_iff.mpr hfind)
      | none =>
          refine Resolved.insiders hpeer fun hop hmem => ?_
          simpa using List.find?_eq_none.mp hfind hop (List.mem_reverse.mpr hmem)

/-- A hop list has at most one rightmost untrusted hop. -/
theorem RightmostUntrusted.unique {hops : List Str} {x y : Str}
    (hx : RightmostUntrusted ip settings hops x)
    (hy : RightmostUntrusted ip settings hops y) : x = y :=
  Option.some.inj ((rightmostUntrusted_iff.mp hx).symm.trans (rightmostUntrusted_iff.mp hy))

theorem RightmostUntrusted.not_all {hops : List Str} {x : Str}
    (hx : RightmostUntrusted ip settings hops x) :
    ¬ ∀ hop ∈ hops, peerIsTrusted ip settings hop = true := by
  obtain ⟨front, back, rfl, huntrusted, -⟩ := hx
  intro hall
  have htrusted := hall x (by simp)
  rw [huntrusted] at htrusted
  cases htrusted

/-- Whatever stands to the left of the hops changes nothing. -/
theorem RightmostUntrusted.prepend {hops : List Str} {x : Str}
    (hx : RightmostUntrusted ip settings hops x) (forged : List Str) :
    RightmostUntrusted ip settings (forged ++ hops) x := by
  obtain ⟨front, back, rfl, huntrusted, hback⟩ := hx
  exact ⟨forged ++ front, back, by simp, huntrusted, hback⟩

/-- Where some hop is untrusted there is a rightmost one. -/
theorem exists_rightmostUntrusted {hops : List Str}
    (h : ∃ hop ∈ hops, peerIsTrusted ip settings hop = false) :
    ∃ hop, RightmostUntrusted ip settings hops hop := by
  obtain ⟨hop, hmem, huntrusted⟩ := h
  have hsome : (hops.reverse.find? fun hop => !peerIsTrusted ip settings hop).isSome = true := by
    rw [List.find?_isSome]
    exact ⟨hop, List.mem_reverse.mpr hmem, by rw [huntrusted]; rfl⟩
  obtain ⟨found, hfound⟩ := Option.isSome_iff_exists.mp hsome
  exact ⟨found, rightmostUntrusted_iff.mpr hfound⟩

/-- A stranger's address is its socket peer. -/
theorem Resolved.eq_socketPeer_of_stranger {request : Request} {address : Str}
    (h : Resolved ip settings request address)
    (hpeer : peerIsTrusted ip settings request.peer = false) :
    address = request.socketPeer := by
  cases h with
  | stranger _ => rfl
  | visitor htrusted _ => exact absurd (hpeer.symm.trans htrusted) (by decide)
  | insiders htrusted _ => rfl

/-- Behind a trusted peer the address is the rightmost untrusted hop. -/
theorem Resolved.eq_visitor {request : Request} {address hop : Str}
    (h : Resolved ip settings request address)
    (hpeer : peerIsTrusted ip settings request.peer = true)
    (hhop : RightmostUntrusted ip settings request.hops hop) : address = hop := by
  cases h with
  | stranger huntrusted => exact absurd (hpeer.symm.trans huntrusted) (by decide)
  | visitor _ hfound => exact hfound.unique hhop
  | insiders _ hall => exact absurd hall hhop.not_all

/-- Where every hop is trusted the address is the socket peer. -/
theorem Resolved.eq_socketPeer_of_insiders {request : Request} {address : Str}
    (h : Resolved ip settings request address)
    (hall : ∀ hop ∈ request.hops, peerIsTrusted ip settings hop = true) :
    address = request.socketPeer := by
  cases h with
  | stranger _ => rfl
  | visitor _ hfound => exact absurd hall hfound.not_all
  | insiders _ _ => rfl

/-- The literal `*` trusts every text. -/
theorem peerIsTrusted_of_anyone (hanyone : .anyone ∈ trustedProxies ip settings) (peer : Str) :
    peerIsTrusted ip settings peer = true := by
  rw [peerIsTrusted, if_pos]
  exact List.any_eq_true.mpr ⟨.anyone, hanyone, rfl⟩

/-- Without it, an address is trusted when a listed network holds it. -/
theorem peerIsTrusted_iff (hanyone : .anyone ∉ trustedProxies ip settings) (peer : Str) :
    peerIsTrusted ip settings peer = true ↔
      ∃ address, ip.ipAddress peer = some address ∧
        ∃ n, .network n ∈ trustedProxies ip settings ∧ ip.contains n address = true := by
  rw [peerIsTrusted, if_neg]
  · cases hparse : ip.ipAddress peer with
    | none => simp
    | some address =>
        simp only [List.any_eq_true, Option.some.injEq, exists_eq_left']
        constructor
        · rintro ⟨_ | n, hmem, hcontains⟩
          · cases hcontains
          · exact ⟨n, hmem, hcontains⟩
        · rintro ⟨n, hmem, hcontains⟩
          exact ⟨.network n, hmem, hcontains⟩
  · rw [List.any_eq_true]
    rintro ⟨_ | n, hmem, hentry⟩
    · exact hanyone hmem
    · cases hentry

/-- A text that is no address is trusted only by the literal `*`. -/
theorem anyone_of_peerIsTrusted {peer : Str} (hparse : ip.ipAddress peer = none)
    (htrusted : peerIsTrusted ip settings peer = true) :
    .anyone ∈ trustedProxies ip settings := by
  by_contra hanyone
  obtain ⟨address, hsome, -⟩ := (peerIsTrusted_iff hanyone peer).mp htrusted
  rw [hparse] at hsome
  cases hsome

theorem anyone_mem_trustedProxies :
    .anyone ∈ trustedProxies ip settings ↔
      Str.ofString "*" ∈ listed settings.trustedProxies := by
  simp only [trustedProxies, List.mem_filterMap]
  constructor
  · rintro ⟨tok, hmem, htok⟩
    by_cases hstar : tok = Str.ofString "*"
    · exact hstar ▸ hmem
    · rw [if_neg hstar] at htok
      rcases hn : ip.ipNetwork tok with _ | n
      · rw [hn] at htok
        cases htok
      · rw [hn] at htok
        cases htok
  · intro hmem
    exact ⟨_, hmem, if_pos rfl⟩

end

/-! ### Forged hops -/

/-- A caller cannot choose its address: a stranger's header is not read, what
stands before an untrusted hop is not read either, and a trusted address is
given only to a peer behind which every hop is trusted. -/
theorem clientIp_unforgeable (ip : IpAddress) (settings : Settings) (request : Request) :
    (peerIsTrusted ip settings request.peer = false →
      ∀ header : Option Bytes,
        clientIp ip settings { request with xForwardedFor := header } =
          clientIp ip settings request) ∧
    (peerIsTrusted ip settings request.peer = true →
      ∀ s : Bytes,
        (∃ hop ∈ listed (headerText (some s)), peerIsTrusted ip settings hop = false) →
        ∀ p : Bytes,
          clientIp ip settings { request with xForwardedFor := some (p ++ 44 :: s) } =
              clientIp ip settings { request with xForwardedFor := some s } ∧
            RightmostUntrusted ip settings (listed (headerText (some s)))
              (clientIp ip settings { request with xForwardedFor := some s })) ∧
    (ip.ipAddress "unknown" = none →
      peerIsTrusted ip settings (clientIp ip settings request) = true →
      (∀ hop ∈ request.hops, peerIsTrusted ip settings hop = true) ∧
        clientIp ip settings request = request.socketPeer) ∧
    ((∀ hop ∈ request.hops, peerIsTrusted ip settings hop = true) →
      clientIp ip settings request = request.socketPeer) := by
  refine ⟨fun hpeer header => ?_, fun hpeer s hs p => ?_, fun hunknown htrusted => ?_,
    fun hall => ?_⟩
  · have hforged := clientIp_resolved ip settings
      { request with xForwardedFor := header }
    have hplain := clientIp_resolved ip settings request
    rw [hforged.eq_socketPeer_of_stranger hpeer, hplain.eq_socketPeer_of_stranger hpeer]
    rfl
  · obtain ⟨hop, hhop⟩ := exists_rightmostUntrusted hs
    have hplain := clientIp_resolved ip settings
      { request with xForwardedFor := some s }
    have hforged := clientIp_resolved ip settings
      { request with xForwardedFor := some (p ++ 44 :: s) }
    have hhops : Request.hops { request with xForwardedFor := some (p ++ 44 :: s) } =
        listed (headerText (some p)) ++ listed (headerText (some s)) := by
      rw [Request.hops, headerText_append, listed_append]
    have hforgedHop : RightmostUntrusted ip settings
        (Request.hops { request with xForwardedFor := some (p ++ 44 :: s) }) hop :=
      hhops.symm ▸ hhop.prepend (listed (headerText (some p)))
    rw [hforged.eq_visitor hpeer hforgedHop, hplain.eq_visitor hpeer hhop]
    exact ⟨rfl, hhop⟩
  · have hresolved := clientIp_resolved ip settings request
    generalize clientIp ip settings request = address at hresolved htrusted
    cases hresolved with
    | stranger hpeer =>
        -- The peer is a stranger, so the trusted text is the literal "unknown".
        rw [Request.socketPeer] at htrusted
        split at htrusted
        · have hanyone := anyone_of_peerIsTrusted hunknown htrusted
          rw [peerIsTrusted_of_anyone hanyone] at hpeer
          cases hpeer
        · rw [hpeer] at htrusted
          cases htrusted
    | visitor hpeer hhop =>
        obtain ⟨_, _, _, huntrusted, _⟩ := hhop
        rw [huntrusted] at htrusted
        cases htrusted
    | insiders hpeer hall => exact ⟨hall, rfl⟩
  · exact (clientIp_resolved ip settings request).eq_socketPeer_of_insiders hall

/-! ### Dotted quads -/

/-- A decimal number without leading zeros, at most `bound`. -/
def decimal (bound : Nat) (s : Str) : Option Nat :=
  let digits := s.map fun c => c.val - 48
  if s ≠ [] ∧ s.all (fun c => 48 ≤ c.val && c.val ≤ 57) ∧
      (s.length = 1 ∨ s.head? ≠ some (ch '0')) then
    let n := digits.foldl (fun acc d => 10 * acc + d) 0
    if n ≤ bound then some n else none
  else none

def ipv4Address (s : Str) : Option Nat :=
  match (Str.split (ch '.') s).map (decimal 255) with
  | [some a, some b, some c, some d] => some (((a * 256 + b) * 256 + c) * 256 + d)
  | _ => none

/-- `ipaddress` on IPv4 texts: a network is an address and a prefix length. -/
def ipv4 : IpAddress where
  Network := Nat × Nat
  Address := Nat
  ipNetwork s :=
    match Str.split (ch '/') s with
    | [base] => (ipv4Address base).map fun a => (a, 32)
    | [base, len] => do
        let a ← ipv4Address base
        let n ← decimal 32 len
        pure (a, n)
    | _ => none
  ipAddress := ipv4Address
  contains n a := n.1 / 2 ^ (32 - n.2) == a / 2 ^ (32 - n.2)

/-- A request that came through a proxy on the same host. -/
def throughProxy (header : String) : Request :=
  { client := some "127.0.0.1"
    xForwardedFor := some (header.toList.map fun c => UInt8.ofNat c.toNat) }

/-- A proxy on the same host and a network of them. -/
def twoProxies : Settings := { trustedProxies := "127.0.0.1, 10.0.0.0/8" }

theorem clientIp_unforgeable_chained :
    clientIp ipv4 twoProxies (throughProxy "1.1.1.1,9.9.9.9, 10.2.3.4") =
      Str.ofString "9.9.9.9" := by
  have hrun := ((clientIp_unforgeable ipv4 twoProxies (throughProxy "")).2.1 (by decide +kernel)
    ("9.9.9.9, 10.2.3.4".toList.map fun c => UInt8.ofNat c.toNat)
    ⟨Str.ofString "9.9.9.9", by decide +kernel, by decide +kernel⟩
    ("1.1.1.1".toList.map fun c => UInt8.ofNat c.toNat)).1
  calc clientIp ipv4 twoProxies (throughProxy "1.1.1.1,9.9.9.9, 10.2.3.4") = _ := hrun
    _ = Str.ofString "9.9.9.9" := by decide +kernel

/-! ### Distinct visitors -/

section

variable (ip : IpAddress) (settings : Settings)

/-- A visitor's own address: one hop, and in no listed network. -/
structure Outsider (v : Bytes) : Prop where
  nonempty : v ≠ []
  comma : ch ',' ∉ decodeLatin1 v
  stripped : Str.strip (decodeLatin1 v) = decodeLatin1 v
  address : ∃ a, ip.ipAddress (decodeLatin1 v) = some a ∧
    ∀ n, .network n ∈ trustedProxies ip settings → ip.contains n a = false

/-- The address a peer's request is filed under when it forwards this visitor. -/
def forwarded (request : Request) (v : Bytes) : Str :=
  clientIp ip settings { request with xForwardedFor := some v }

/-- Two visitors of one peer have their own addresses, so that a call charged to
one of them leaves the budget of the other as it was. -/
def Separated (request : Request) (v w : Bytes) : Prop :=
  forwarded ip settings request v ≠ forwarded ip settings request w ∧
    ∀ (route : Str) (hits : Hits) (limit now : Int),
      (rateOk hits (route ++ forwarded ip settings request v) limit now).2
          (route ++ forwarded ip settings request w) =
        hits (route ++ forwarded ip settings request w)

variable {ip settings}

theorem Outsider.hops_eq {v : Bytes} (hv : Outsider ip settings v) (request : Request) :
    Request.hops { request with xForwardedFor := some v } = [decodeLatin1 v] := by
  rw [Request.hops, headerText, Option.getD_some]
  exact listed_singleton hv.comma hv.stripped fun hnil => hv.nonempty (List.map_eq_nil_iff.mp hnil)

/-- Unless everyone is trusted, an outsider is no proxy. -/
theorem Outsider.untrusted {v : Bytes} (hv : Outsider ip settings v)
    (hanyone : .anyone ∉ trustedProxies ip settings) :
    peerIsTrusted ip settings (decodeLatin1 v) = false := by
  obtain ⟨a, hparse, houtside⟩ := hv.address
  rw [← Bool.not_eq_true, peerIsTrusted_iff hanyone]
  rintro ⟨a', hparse', n, hmem, hcontains⟩
  rw [hparse] at hparse'
  rw [← Option.some.inj hparse', houtside n hmem] at hcontains
  cases hcontains

theorem forwarded_eq {request : Request} {v : Bytes} (hv : Outsider ip settings v)
    (hpeer : peerIsTrusted ip settings request.peer = true)
    (hanyone : .anyone ∉ trustedProxies ip settings) :
    forwarded ip settings request v = decodeLatin1 v := by
  have hresolved := clientIp_resolved ip settings
    { request with xForwardedFor := some v }
  have hhop : RightmostUntrusted ip settings
      (Request.hops { request with xForwardedFor := some v }) (decodeLatin1 v) := by
    rw [hv.hops_eq]
    exact ⟨[], [], rfl, hv.untrusted hanyone, by simp⟩
  exact hresolved.eq_visitor hpeer hhop

/-- Where everyone is trusted no hop is a visitor. -/
theorem forwarded_anyone (request : Request) (v : Bytes)
    (hanyone : .anyone ∈ trustedProxies ip settings) :
    forwarded ip settings request v = request.socketPeer :=
  (clientIp_resolved ip settings { request with xForwardedFor := some v }).eq_socketPeer_of_insiders
    fun hop _ => peerIsTrusted_of_anyone hanyone hop

end

/-- Two visitors behind a trusted forwarder are told apart exactly when the
literal `*` is not listed. -/
theorem visitors_separated_iff (ip : IpAddress) (settings : Settings) (request : Request)
    (hpeer : peerIsTrusted ip settings request.peer = true) {v w : Bytes}
    (hv : Outsider ip settings v) (hw : Outsider ip settings w) (hne : v ≠ w) :
    Separated ip settings request v w ↔ Str.ofString "*" ∉ listed settings.trustedProxies := by
  rw [← @anyone_mem_trustedProxies ip settings]
  constructor
  · rintro ⟨hdistinct, -⟩ hanyone
    apply hdistinct
    rw [forwarded_anyone request v hanyone, forwarded_anyone request w hanyone]
  · intro hanyone
    have hdistinct : forwarded ip settings request v ≠ forwarded ip settings request w := by
      rw [forwarded_eq hv hpeer hanyone, forwarded_eq hw hpeer hanyone]
      exact mt decodeLatin1_inj.mp hne
    refine ⟨hdistinct, fun route hits limit now => rateOk_other hits ?_ limit now⟩
    exact fun heq => hdistinct (List.append_cancel_left heq).symm

/-- The bytes `203.0.113.` and one digit. -/
def visitorBytes (digit : UInt8) : Bytes := [50, 48, 51, 46, 48, 46, 49, 49, 51, 46, digit]

/-- The two visitors are outsiders to a proxy on the same host. -/
theorem outsider_visitorBytes {settings : Settings} {digit : UInt8}
    (hdigit : digit = 49 ∨ digit = 50)
    (hproxies : ∀ n : Nat × Nat, .network n ∈ trustedProxies ipv4 settings →
      n = (2130706433, 32)) : Outsider ipv4 settings (visitorBytes digit) := by
  have hparse : ∃ a : Nat, ipv4Address (decodeLatin1 (visitorBytes digit)) = some a ∧
      ipv4.contains ((2130706433, 32) : Nat × Nat) a = false := by
    rcases hdigit with rfl | rfl
    · exact ⟨3405803777, by decide +kernel, by decide +kernel⟩
    · exact ⟨3405803778, by decide +kernel, by decide +kernel⟩
  obtain ⟨a, ha, houtside⟩ := hparse
  refine ⟨by simp [visitorBytes], ?_, ?_, a, ha, fun n hmem => ?_⟩
  · rcases hdigit with rfl | rfl
    · decide +kernel
    · decide +kernel
  · rcases hdigit with rfl | rfl
    · decide +kernel
    · decide +kernel
  · rw [hproxies n hmem]
    exact houtside

theorem visitors_separated_iff_proxy :
    Separated ipv4 { trustedProxies := "127.0.0.1" } (throughProxy "")
      (visitorBytes 49) (visitorBytes 50) := by
  have hproxies : ∀ n : Nat × Nat, ProxyEntry.network n ∈
      trustedProxies ipv4 { trustedProxies := "127.0.0.1" } → n = (2130706433, 32) := by
    have hentries : trustedProxies ipv4 { trustedProxies := "127.0.0.1" } =
        [.network ((2130706433, 32) : Nat × Nat)] := by
      rfl
    intro n hmem
    rw [hentries] at hmem
    exact ProxyEntry.network.inj (List.mem_singleton.mp hmem)
  exact (visitors_separated_iff ipv4 { trustedProxies := "127.0.0.1" } (throughProxy "")
    (by decide +kernel) (outsider_visitorBytes (Or.inl rfl) hproxies)
    (outsider_visitorBytes (Or.inr rfl) hproxies) (by decide)).mpr (by decide +kernel)

/-- Where `*` is listed the header of every visitor is read and thrown away. -/
theorem visitors_separated_anyone :
    peerIsTrusted ipv4 { trustedProxies := "*" } (throughProxy "").peer = true ∧
      Outsider ipv4 { trustedProxies := "*" } (visitorBytes 49) ∧
      Outsider ipv4 { trustedProxies := "*" } (visitorBytes 50) ∧
      visitorBytes 49 ≠ visitorBytes 50 ∧
      ¬ Separated ipv4 { trustedProxies := "*" } (throughProxy "")
        (visitorBytes 49) (visitorBytes 50) := by
  have hproxies : ∀ n : Nat × Nat, .network n ∈
      trustedProxies ipv4 { trustedProxies := "*" } → n = (2130706433, 32) := by
    have hentries : trustedProxies ipv4 { trustedProxies := "*" } = [.anyone] := by
      rfl
    intro n hmem
    rw [hentries] at hmem
    cases List.mem_singleton.mp hmem
  exact ⟨by decide +kernel, outsider_visitorBytes (Or.inl rfl) hproxies,
    outsider_visitorBytes (Or.inr rfl) hproxies, by decide, fun h => h.1 (by decide +kernel)⟩

end NetplexSupport
