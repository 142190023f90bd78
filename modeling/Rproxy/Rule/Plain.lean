import Rproxy.Data.Split
import Rproxy.Rule.Stored

/-!
# A plain instance of the external parts

So that the model can be evaluated on fixed rules: IPv4 addresses in dotted decimal, IPv6 addresses
as eight decimal groups, no `http` settings beyond their presence, and the cipher suites of the TLS
provider.
-/

namespace Rproxy
open List Text
namespace Text

def joinWith (c : Char) : List String → List Char
  | [] => []
  | [p] => p.toList
  | p :: q :: rest => p.toList ++ c :: joinWith c (q :: rest)

lemma joinWith_eq (c : Char) (pieces : List String) :
    joinWith c pieces = [c].intercalate (pieces.map String.toList) := by
  fun_induction joinWith <;> simp_all

lemma splitOn_joinWith {c : Char} {p : String} {rest : List String}
    (h : ∀ q ∈ p :: rest, c ∉ q.toList) :
    splitOn c (String.ofList (joinWith c (p :: rest))) = p :: rest := by
  rw [splitOn_eq, String.toList_ofList, joinWith_eq,
    splitOn_intercalate _ (forall_mem_map.mpr h) (by simp)]
  simp

lemma mem_joinWith {c x : Char} {pieces : List String} (h : x ∈ joinWith c pieces) :
    x = c ∨ ∃ p ∈ pieces, x ∈ p.toList := by
  rw [joinWith_eq] at h
  rcases Split.mem_intercalate h with h | ⟨q, hq, hx⟩
  · exact .inl (mem_singleton.mp h)
  obtain ⟨p, hp, rfl⟩ := mem_map.mp hq
  exact .inr ⟨p, hp, hx⟩

end Text

namespace Plain

def groups (b k n : Nat) : List Nat :=
  match k with
  | 0 => []
  | k + 1 => n / b ^ k % b :: groups b k n

def ofGroups (b : Nat) : List Nat → Nat
  | [] => 0
  | g :: gs => g * b ^ gs.length + ofGroups b gs

lemma length_groups (b k n : Nat) : (groups b k n).length = k := by
  induction k with
  | zero => rfl
  | succ k ih => rw [groups, length_cons, ih]

lemma ofGroups_groups (b k n : Nat) : ofGroups b (groups b k n) = n % b ^ k := by
  induction k with
  | zero => simp [groups, ofGroups, Nat.mod_one]
  | succ k ih =>
    rw [groups, ofGroups, length_groups, ih, Nat.pow_succ, Nat.mod_mul, Nat.mul_comm, Nat.add_comm]

lemma lt_of_mem_groups {b k n g : Nat} (hb : 0 < b) (h : g ∈ groups b k n) : g < b := by
  induction k with
  | zero => cases h
  | succ k ih =>
    rw [groups, mem_cons] at h
    rcases h with rfl | h
    · exact Nat.mod_lt _ hb
    · exact ih h

def showGroups (c : Char) (gs : List Nat) : String :=
  String.ofList (joinWith c (gs.map Nat.repr))

def parseGroups (c : Char) (b k : Nat) (s : String) : Option (List Nat) :=
  let pieces := Text.splitOn c s
  if pieces.length = k then pieces.mapM (parseUnsigned (b - 1)) else none

lemma notMem_repr {c : Char} (hc : c.isDigit = false) (n : Nat) : c ∉ n.repr.toList := by
  intro h
  rw [isDigit_of_mem_repr h] at hc
  cases hc

lemma splitOn_showGroups {c : Char} (hc : c.isDigit = false) {g : Nat} {gs : List Nat} :
    Text.splitOn c (showGroups c (g :: gs)) = (g :: gs).map Nat.repr := by
  rw [showGroups, map_cons, splitOn_joinWith]
  intro q hq
  rw [← map_cons, mem_map] at hq
  obtain ⟨n, -, rfl⟩ := hq
  exact notMem_repr hc n

lemma parseGroups_showGroups {c : Char} {b k n : Nat} (hc : c.isDigit = false) (hb : 0 < b) :
    parseGroups c b (k + 1) (showGroups c (groups b (k + 1) n)) = some (groups b (k + 1) n) := by
  have hall : ∀ gs : List Nat, (∀ g ∈ gs, g < b) →
      (gs.map Nat.repr).mapM (parseUnsigned (b - 1)) = some gs := by
    intro gs hgs
    induction gs with
    | nil => rfl
    | cons g gs ih =>
      have hg := hgs g (by simp)
      rw [map_cons, mapM_cons, parseUnsigned_repr (by omega),
        ih fun x hx => hgs x (by simp [hx])]
      rfl
  have hsplit : Text.splitOn c (showGroups c (groups b (k + 1) n))
      = (groups b (k + 1) n).map Nat.repr := splitOn_showGroups hc
  rw [parseGroups, hsplit, length_map, length_groups, if_pos rfl]
  exact hall _ fun g hg => lt_of_mem_groups hb hg

def showIp : IpAddr → String
  | .v4 bits => showGroups '.' (groups 256 4 bits.toNat)
  | .v6 bits => showGroups ':' (groups 65536 8 bits.toNat)

def parseIp (s : String) : Option IpAddr :=
  match parseGroups '.' 256 4 s with
  | some gs => some (.v4 (BitVec.ofNat 32 (ofGroups 256 gs)))
  | none => (parseGroups ':' 65536 8 s).map fun gs => .v6 (BitVec.ofNat 128 (ofGroups 65536 gs))

scoped instance external : External where
  HttpSpec := Unit
  httpDecEq := inferInstance
  httpValidate _ := .ok ()
  http3 _ := false
  middlewareKinds _ := []
  services _ := []
  optionsUsed _ := []
  forwardAuthUsed _ := []
  httpCodec :=
    { enc := fun _ => .obj []
      dec := fun
        | .obj _ => some ()
        | _ => none
      dec_enc := fun _ => rfl
      enc_ne_null := fun _ => nofun }
  parseIp := parseIp
  showIp := showIp
  cipherSuites :=
    [("TLS_AES_256_GCM_SHA384", true), ("TLS_AES_128_GCM_SHA256", true),
     ("TLS_CHACHA20_POLY1305_SHA256", true), ("TLS_ECDHE_ECDSA_WITH_AES_256_GCM_SHA384", false),
     ("TLS_ECDHE_ECDSA_WITH_AES_128_GCM_SHA256", false),
     ("TLS_ECDHE_ECDSA_WITH_CHACHA20_POLY1305_SHA256", false),
     ("TLS_ECDHE_RSA_WITH_AES_256_GCM_SHA384", false),
     ("TLS_ECDHE_RSA_WITH_AES_128_GCM_SHA256", false),
     ("TLS_ECDHE_RSA_WITH_CHACHA20_POLY1305_SHA256", false)]
  debugStr s := "\"" ++ s ++ "\""
  digest _ := "0000000000000000"

lemma mem_showGroups {c x : Char} {gs : List Nat} (h : x ∈ (showGroups c gs).toList) :
    x = c ∨ x.isDigit := by
  rw [showGroups, String.toList_ofList] at h
  rcases mem_joinWith h with h | ⟨p, hp, hx⟩
  · exact .inl h
  rw [mem_map] at hp
  obtain ⟨n, -, rfl⟩ := hp
  exact .inr (isDigit_of_mem_repr hx)

lemma not_special_of_isDigit {x : Char} (h : x.isDigit) :
    isWhitespace x = false ∧ isBracket x = false ∧ x ≠ '/' := by
  refine ⟨isWhitespace_of_isDigit h, ?_, ?_⟩
  · rw [isBracket, Bool.or_eq_false_iff, beq_eq_false_iff_ne, beq_eq_false_iff_ne]
    constructor <;> rintro rfl <;> exact absurd h (by decide)
  rintro rfl
  exact absurd h (by decide)

scoped instance lawfulIpText : LawfulIpText where
  parse_show ip := by
    cases ip with
    | v4 bits =>
      have h := parseGroups_showGroups (c := '.') (b := 256) (k := 3) (n := bits.toNat)
        (by decide) (by decide)
      have hbits := bits.isLt
      change parseIp (showGroups '.' (groups 256 4 bits.toNat)) = _
      rw [parseIp, h]
      simp only [ofGroups_groups]
      rw [Nat.mod_eq_of_lt (by simpa using hbits), BitVec.ofNat_toNat, BitVec.setWidth_eq]
    | v6 bits =>
      have h := parseGroups_showGroups (c := ':') (b := 65536) (k := 7) (n := bits.toNat)
        (by decide) (by decide)
      have hdots : parseGroups '.' 256 4 (showGroups ':' (groups 65536 8 bits.toNat)) = none := by
        -- the text has no dot, so it is a single piece
        have hmem : '.' ∉ (showGroups ':' (groups 65536 8 bits.toNat)).toList := by
          intro hdot
          rcases mem_showGroups hdot with h | h <;> exact absurd h (by decide)
        have hmems : ∀ q ∈ [showGroups ':' (groups 65536 8 bits.toNat)], '.' ∉ q.toList := by
          simpa using hmem
        have hone := Text.splitOn_joinWith hmems
        rw [Text.joinWith, String.ofList_toList] at hone
        rw [parseGroups, hone]
        rfl
      have hbits := bits.isLt
      change parseIp (showGroups ':' (groups 65536 8 bits.toNat)) = _
      rw [parseIp, hdots, h]
      simp only [ofGroups_groups, Option.map_some]
      rw [Nat.mod_eq_of_lt (by simpa using hbits), BitVec.ofNat_toNat, BitVec.setWidth_eq]
  show_chars ip := by
    intro c hc
    cases ip with
    | v4 bits | v6 bits =>
      rcases mem_showGroups hc with rfl | h
      · decide
      · exact not_special_of_isDigit h

def caps : Caps where
  transparent := false
  transparentIpv6 := false
  maxRangePorts := 20000
  features := .all

def request (protocol : Protocol) (port : UInt16) : RuleRequest where
  protocol := protocol
  listenAddr := "127.0.0.1"
  listenPort := port
  listenPortEnd := none
  extraListenAddrs := []
  listenFreebind := false
  remoteAddr := "backend"
  remotePort := 80
  targets := []
  balance := .default
  healthCheck := none
  connectTimeout := none
  idleTimeout := none
  halfCloseTimeout := none
  sourceIp := .proxy
  udpIdleSecs := none
  tls := none
  starttls := none
  starttlsRequired := none
  allowFrom := []
  proxyProtocol := none
  http := none
  crowdsec := false
  labels := []
  limits := none
  bandwidth := none
  geoip := none
  outlierDetection := none

def target (addr : String) (port : UInt16) : TargetSpec := ⟨addr, port, some 2, false, some 10⟩

def routed : TlsSpec :=
  { TlsSpec.default with
    mode := .sni
    routes := [⟨"a.example", [], "", 0, false, [target "192.0.2.4" 65532], .default, none, none⟩] }

/-- Four ports, with targets, a route with a target, lists and limits. -/
def ranged : RuleRequest :=
  { request .tcp 8000 with
    listenPortEnd := some 8003
    extraListenAddrs := ["127.0.0.2"]
    remoteAddr := ""
    remotePort := 0
    targets := [target "192.0.2.1" 9000, target "192.0.2.2" 65532]
    balance := .leastConn
    tls := some routed
    allowFrom := ["10.0.0.0/8"]
    limits := some ⟨some 100, some ⟨some 24, none, some 5, some ⟨10, none, none⟩, none, none⟩⟩ }

end Plain
end Rproxy
