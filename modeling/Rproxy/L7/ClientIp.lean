import Rproxy.L7.ClientHeaders
import Rproxy.Rule.Plain

/-!
# The client of a request

Behind a proxy the TCP peer of a request is the proxy, and the client is what the proxy wrote into
`X-Forwarded-For`.  `client_cannot_choose` says when that holds whatever the client sends, and
`client_chooses` that it does not always.
-/

namespace Rproxy.ClientIp
open List ClientHeaders

/-! ## The source -/

open HeaderValue LawfulIpText Text HeaderMap

def allows (list : List Cidr) (ip : IpAddr) : Bool :=
  list.isEmpty || list.any fun c => c.contains ip

def trusts (list : List Cidr) (peer : IpAddr) : Bool :=
  !list.isEmpty && allows list peer

/-- What std promises of the text of an address besides `LawfulIpText`: it is not empty, and visible
ASCII without a comma. -/
class LawfulHopText [External] : Prop extends LawfulIpText where
  show_ne : ∀ ip, showIp ip ≠ ""
  show_visible : ∀ ip, ∀ c ∈ (showIp ip).toList, visible c = true ∧ c ≠ ','

section Client
variable [External]

def parseHop (hop : String) : Option IpAddr :=
  match parseIp hop with
  | some ip => some ip
  | none =>
    match stripStart "[" hop with
    | some rest => (Text.splitOn ']' rest).head?.bind parseIp
    | none => (rsplitOnce ':' hop).bind fun parts => parseIp parts.1

def chain (forwardedFor : List String) : List String :=
  ((forwardedFor.flatMap (Text.splitOn ',')).map trim).filter (· != "")

def walk (trusted : List Cidr) (client : IpAddr) : List String → IpAddr
  | [] => client
  | hop :: rest =>
    match parseHop hop with
    | none => client
    | some ip =>
      if trusts trusted ip.canonical then walk trusted ip.canonical rest else ip.canonical

def clientIp (trusted : List Cidr) (peer : IpAddr) (forwardedFor : List String) : IpAddr :=
  if trusts trusted peer.canonical then walk trusted peer.canonical (chain forwardedFor).reverse
  else peer.canonical

def forwardedFor : HeaderName := ⟨"x-forwarded-for"⟩

def clientOfLines (trusted : List Cidr) (client : IpAddr) (lines : List HeaderValue) : IpAddr :=
  clientIp trusted client.canonical (lines.filterMap toStr)

/-- The client of a request in `Conn::handle`, after the identity headers of the rule and those that
`Connection` lists are taken out; what is done before these changes neither `Connection` nor
`X-Forwarded-For`. -/
def clientOf (trusted : List Cidr) (identity : List HeaderName) (client : IpAddr)
    (headers : HeaderMap) : IpAddr :=
  let headers := dropConnectionListed (stripIdentity headers identity)
  clientOfLines trusted client (headers.getAll forwardedFor)

section Proxy
variable [LawfulHopText]

lemma visible_hop (h : IpAddr) : ∀ c ∈ (showIp h).toList, visible c :=
  fun c hc => (LawfulHopText.show_visible h c hc).1

lemma visible_appended (h : IpAddr) :
    ∀ c ∈ ',' :: ' ' :: (showIp h).toList, visible c := by
  intro c hc
  simp only [mem_cons] at hc
  rcases hc with rfl | rfl | hc
  · decide
  · decide
  · exact visible_hop h c hc

def hopLine (h : IpAddr) : HeaderValue :=
  .ofText (showIp h).toList (visible_hop h)

def appendHop (line : HeaderValue) (h : IpAddr) : HeaderValue :=
  line.append (.ofText (',' :: ' ' :: (showIp h).toList) (visible_appended h))

end Proxy

omit [External] in
lemma trusts_canonical (list : List Cidr) (ip : IpAddr) :
    trusts list ip.canonical = trusts list ip := by
  have hcontains : ∀ c : Cidr, c.contains ip.canonical = c.contains ip := by
    intro c
    rw [Cidr.contains, Cidr.contains, IpAddr.canonical_canonical]
  simp [trusts, allows, hcontains]

variable {trusted : List Cidr} {h : IpAddr}

lemma walk_hop [LawfulIpText] (client : IpAddr)
    (rest : List String) (hout : trusts trusted h = false) :
    walk trusted client (showIp h :: rest) = h.canonical := by
  have hparse : parseHop (showIp h) = some h := by
    rw [parseHop, parse_show h]
  rw [walk, hparse]
  simp only [trusts_canonical, hout, Bool.false_eq_true, if_false]

omit [External] in
lemma chain_append (lines : List String) (line : String) :
    chain (lines ++ [line]) = chain lines ++ chain [line] := by
  simp [chain]

open LawfulHopText

lemma chain_appended [LawfulHopText] (line : List Char) (h : IpAddr) :
    chain [String.ofList (line ++ ',' :: ' ' :: (showIp h).toList)]
      = chain [String.ofList line] ++ [showIp h] := by
  have hcomma : ',' ∉ ' ' :: (showIp h).toList := by
    simp only [mem_cons, not_or]
    exact ⟨by decide, fun hc => (show_visible h _ hc).2 rfl⟩
  have hne : (showIp h != "") := by
    simpa using show_ne h
  have htrim : trim (String.ofList (' ' :: (showIp h).toList)) = showIp h := by
    have hspace : isWhitespace ' ' := by decide
    rw [trim, String.toList_ofList, trimMatches]
    exact trim_eq_self fun c hc => (show_chars h c hc).1
  have hsplit : Text.splitOn ',' (String.ofList (line ++ ',' :: ' ' :: (showIp h).toList))
      = Text.splitOn ',' (String.ofList line) ++ [String.ofList (' ' :: (showIp h).toList)] := by
    rw [splitOn_eq, splitOn_eq, String.toList_ofList, String.toList_ofList,
      splitOn_append_cons_self, splitOn_eq_singleton hcomma, map_append,
      map_singleton]
  simp only [chain, flatMap_singleton, hsplit, map_append, map_singleton, htrim,
    filter_append, filter_singleton, hne, cond_true]

lemma chain_hop [LawfulHopText] (h : IpAddr) : chain [showIp h] = [showIp h] := by
  have hcomma : ',' ∉ (showIp h).toList := fun hc => (show_visible h _ hc).2 rfl
  have hne : (showIp h != "") := by
    simpa using show_ne h
  have htrim : trim (showIp h) = showIp h :=
    trim_eq_self fun c hc => (show_chars h c hc).1
  simp [chain, splitOn_eq, splitOn_eq_singleton hcomma, htrim, hne]

lemma clientIp_of_chain [LawfulIpText] {peer : IpAddr}
    {lines : List String} (front : List String) (hpeer : trusts trusted peer)
    (hout : trusts trusted h = false) (hchain : chain lines = front ++ [showIp h]) :
    clientIp trusted peer lines = h.canonical := by
  rw [clientIp, trusts_canonical, hpeer, if_pos rfl, hchain, reverse_append,
    reverse_singleton, singleton_append, walk_hop _ _ hout]

/-! ## The client behind a trusted proxy -/

lemma clientOfLines_of_untrusted {peer : IpAddr}
    (hpeer : trusts trusted peer = false) (lines : List HeaderValue) :
    clientOfLines trusted peer lines = peer.canonical := by
  rw [clientOfLines, clientIp, IpAddr.canonical_canonical, trusts_canonical, hpeer]
  rfl

section Appending
variable [LawfulHopText] {trusted : List Cidr} {peer : IpAddr}

lemma clientOfLines_hopLine (hpeer : trusts trusted peer) (lines : List HeaderValue)
    (hout : trusts trusted h = false) :
    clientOfLines trusted peer (lines ++ [hopLine h]) = h.canonical := by
  have htext : (hopLine h).toStr = some (showIp h) := by
    rw [hopLine, toStr_ofText, String.ofList_toList]
  rw [← trusts_canonical] at hpeer
  refine clientIp_of_chain (chain (lines.filterMap toStr)) hpeer hout ?_
  rw [filterMap_append, filterMap_cons_some htext, filterMap_nil, chain_append, chain_hop]

variable {line : HeaderValue}

lemma clientOfLines_of_isText (hpeer : trusts trusted peer) (lines : List HeaderValue)
    (hline : line.isText) (hout : trusts trusted h = false) :
    clientOfLines trusted peer (lines ++ [appendHop line h]) = h.canonical := by
  have htext : (appendHop line h).toStr = _ :=
    toStr_append_ofText (visible_appended h) hline
  rw [← trusts_canonical] at hpeer
  refine clientIp_of_chain (chain (lines.filterMap toStr) ++
    chain [String.ofList (chars line.bytes)]) hpeer hout ?_
  rw [filterMap_append, filterMap_cons_some htext, filterMap_nil, chain_append,
    chain_appended, append_assoc]

lemma clientOfLines_of_not_isText (lines : List HeaderValue)
    (hline : line.isText = false) (h : IpAddr) :
    clientOfLines trusted peer (lines ++ [appendHop line h]) =
      clientOfLines trusted peer lines := by
  have hnone : (appendHop line h).toStr = none := by
    apply toStr_of_not_isText
    rw [appendHop, isText_append, hline]
    rfl
  rw [clientOfLines, filterMap_append, filterMap_cons_none hnone, filterMap_nil, append_nil]
  rfl

end Appending

/-- The rule and the client leave `X-Forwarded-For` in the request: it is no identity header, and
`Connection` does not list it (or is itself one). -/
def Kept (identity : List HeaderName) (headers : HeaderMap) : Prop :=
  forwardedFor ∉ identity ∧ (connection ∈ identity ∨ forwardedFor ∉ listed headers)

omit [External] in
lemma getAll_handled (identity : List HeaderName) (headers : HeaderMap) (v : HeaderValue)
    [Decidable (Kept identity headers)] :
    (dropConnectionListed (stripIdentity (headers ++ [(forwardedFor, v)]) identity)).getAll
      forwardedFor =
      if Kept identity headers then headers.getAll forwardedFor ++ [v] else [] := by
  have hconn : getAll (headers ++ [(forwardedFor, v)]) connection =
      headers.getAll connection :=
    (getAll_append ..).trans (append_nil _)
  have hlines : getAll (headers ++ [(forwardedFor, v)]) forwardedFor =
      headers.getAll forwardedFor ++ [v] :=
    getAll_append ..
  have hlisted : listed (stripIdentity (headers ++ [(forwardedFor, v)]) identity) =
      if connection ∈ identity then [] else listed headers := by
    rw [listed, getAll_stripIdentity (by decide), hconn]
    split_ifs <;> rfl
  rw [getAll_dropConnectionListed (by decide) (by decide), getAll_stripIdentity (by decide),
    hlisted, hlines]
  by_cases hid : forwardedFor ∈ identity <;> by_cases hc : connection ∈ identity <;>
    by_cases hl : forwardedFor ∈ listed headers <;> simp [Kept, hid, hc, hl]

/-- Whatever address outside the list a proxy appends to the last line, it is the client's. -/
def Believed [LawfulHopText] (trusted : List Cidr) (identity : List HeaderName) (peer : IpAddr)
    (headers : HeaderMap) (last : HeaderValue) : Prop :=
  ∀ h, trusts trusted h = false →
    clientOf trusted identity peer (headers ++ [(forwardedFor, appendHop last h)]) = h.canonical

/-- **When a client behind a trusted proxy cannot choose its address.** From a peer outside the list
the headers are not looked at. Where `X-Forwarded-For` is left in the request, an address that a
trusted proxy sends as a further line is the client's; so is one that it appends to the last line if
that line holds no byte from 0x80 up. When at least two addresses are outside the list, the latter
holds only then. -/
theorem client_cannot_choose [LawfulHopText] (trusted : List Cidr) (identity : List HeaderName)
    (peer : IpAddr) (headers : HeaderMap) :
    (trusts trusted peer = false → clientOf trusted identity peer headers = peer.canonical) ∧
    (trusts trusted peer = true →
      (Kept identity headers → ∀ h, trusts trusted h = false →
        clientOf trusted identity peer (headers ++ [(forwardedFor, hopLine h)]) = h.canonical) ∧
      ∀ last : HeaderValue,
        (Kept identity headers → (∀ b ∈ last.bytes, b < 0x80) →
          Believed trusted identity peer headers last) ∧
        ((∃ h₁ h₂ : IpAddr, trusts trusted h₁ = false ∧ trusts trusted h₂ = false ∧
            h₁.canonical ≠ h₂.canonical) →
          Believed trusted identity peer headers last →
            Kept identity headers ∧ ∀ b ∈ last.bytes, b < 0x80)) := by
  classical
  refine ⟨fun hpeer => clientOfLines_of_untrusted hpeer _, fun hpeer => ⟨?_, fun last => ⟨?_, ?_⟩⟩⟩
  · intro hkept h hout
    rw [clientOf, getAll_handled, if_pos hkept]
    exact clientOfLines_hopLine hpeer _ hout
  · intro hkept hlast h hout
    rw [clientOf, getAll_handled, if_pos hkept]
    exact clientOfLines_of_isText hpeer _ (last.isText_iff.mpr hlast) hout
  rintro ⟨h₁, h₂, hout₁, hout₂, hne⟩ hbelieved
  have hfirst := hbelieved h₁ hout₁
  have hsecond := hbelieved h₂ hout₂
  rw [clientOf, getAll_handled] at hfirst hsecond
  by_cases hkept : Kept identity headers
  · refine ⟨hkept, ?_⟩
    rw [← last.isText_iff]
    by_contra hno
    have hnot : last.isText = false := by simpa using hno
    rw [if_pos hkept, clientOfLines_of_not_isText _ hnot] at hfirst hsecond
    exact hne (hfirst.symm.trans hsecond)
  -- without the lines both are the peer's address
  rw [if_neg hkept] at hfirst hsecond
  exact absurd (hfirst.symm.trans hsecond) hne

end Client

section Plain
open scoped Plain

def proxies : List Cidr :=
  [.ofAddr (.v4 0x0A000000) 8 (by decide)]

instance lawfulHopText : LawfulHopText where
  show_ne ip hempty := by
    have hparse := parse_show ip
    have hnone : parseIp "" = none := by decide
    rw [hempty, hnone] at hparse
    cases hparse
  show_visible ip := by
    intro c hc
    cases ip with
    | v4 bits | v6 bits =>
      rcases Plain.mem_showGroups hc with rfl | h
      · decide
      · exact visible_of_isDigit h

/-- Headers of a client that lists another of them in `Connection`. -/
def sent : HeaderMap :=
  [(connection, .ofText "X-User".toList (all_eq_true.mp (by decide))), (⟨"x-user"⟩, .ofNat 1),
    (forwardedFor, hopLine (.v4 0x08080808))]

theorem client_of_text :
    trusts proxies (.v4 0x0A000001) = true ∧ trusts proxies (.v4 0xCB007109) = false ∧
      clientOf proxies (identityHeaders [.oidc]) (.v4 0x0A000001) (sent ++
        [(forwardedFor, appendHop (hopLine (.v4 0x01010101)) (.v4 0xCB007109))]) =
        .v4 0xCB007109 := by
  refine ⟨by decide, by decide, ?_⟩
  refine ((client_cannot_choose proxies (identityHeaders [.oidc]) (.v4 0x0A000001) sent).2
    (by decide)).2 (hopLine (.v4 0x01010101)) |>.1 ⟨by decide +kernel, .inr (by decide +kernel)⟩ ?_
    (.v4 0xCB007109) (by decide)
  decide +kernel

/-- A client sends the lines `1.1.1.1` and the byte 0xFF. Its proxy appends `203.0.113.9` to the
last line, and the client of the request is `1.1.1.1`. -/
theorem client_chooses :
    ¬ ∀ (trusted : List Cidr) (identity : List HeaderName) (peer h : IpAddr) (headers : HeaderMap)
      (last : HeaderValue), trusts trusted peer = true → trusts trusted h = false →
      clientOf trusted identity peer (headers ++ [(forwardedFor, appendHop last h)]) =
        h.canonical := by
  intro hall
  have h := hall proxies [] (.v4 0x0A000001) (.v4 0xCB007109)
    [(forwardedFor, hopLine (.v4 0x01010101))] ⟨[0xFF], by decide +kernel⟩ (by decide) (by decide)
  revert h
  decide +kernel

end Plain
end Rproxy.ClientIp
