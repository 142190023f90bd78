import Rproxy.Data.Bytes
import Rproxy.Rule.Basic

/-!
# PROXY protocol headers

rproxy puts a PROXY header in front of a connection or a datagram, and reads those of front ends.
-/

namespace Rproxy.ProxyHeader

open Bytes UInt16

/-- `Display` and `FromStr` of `Ipv4Addr` and `Ipv6Addr`. -/
class AddrText where
  showV4 : BitVec 32 → List UInt8
  parseV4 : List UInt8 → Option (BitVec 32)
  showV6 : BitVec 128 → List UInt8
  parseV6 : List UInt8 → Option (BitVec 128)

export AddrText (showV4 parseV4 showV6 parseV6)

def visible (b : UInt8) : Prop := 0x20 < b ∧ b < 0x7F

instance (b : UInt8) : Decidable (visible b) := inferInstanceAs (Decidable (_ ∧ _))

/-- What std promises: the text of an address reads back, is of visible ASCII characters and has at
most 15 or 39 of them. -/
class LawfulAddrText [AddrText] : Prop where
  parse_showV4 : ∀ a, parseV4 (showV4 a) = some a
  parse_showV6 : ∀ a, parseV6 (showV6 a) = some a
  visible_showV4 : ∀ a, ∀ b ∈ showV4 a, visible b
  visible_showV6 : ∀ a, ∀ b ∈ showV6 a, visible b
  length_showV4 : ∀ a, (showV4 a).length ≤ 15
  length_showV6 : ∀ a, (showV6 a).length ≤ 39

/-- `std::net::SocketAddr`: an IPv6 one also has a flow label and a scope. -/
inductive Endpoint where
  | v4 (ip : BitVec 32) (port : UInt16)
  | v6 (ip : BitVec 128) (port : UInt16) (flowinfo scope : UInt32)
deriving DecidableEq

namespace Endpoint

def ip : Endpoint → IpAddr
  | v4 ip _ => .v4 ip
  | v6 ip _ _ _ => .v6 ip

def port : Endpoint → UInt16
  | v4 _ port => port
  | v6 _ port _ _ => port

def new (ip : IpAddr) (port : UInt16) : Endpoint :=
  match ip with
  | .v4 ip => v4 ip port
  | .v6 ip => v6 ip port 0 0

end Endpoint

def toV6 : IpAddr → BitVec 128
  | .v4 ip => 0xFFFF#96 ++ ip
  | .v6 ip => ip

/-! ## Writing headers -/

def v2Signature : List UInt8 :=
  [0x0D, 0x0A, 0x0D, 0x0A, 0x00, 0x0D, 0x0A, 0x51, 0x55, 0x49, 0x54, 0x0A]

def v1Prefix : List UInt8 := [0x50, 0x52, 0x4F, 0x58, 0x59, 0x20]

def tcp4 : List UInt8 := [0x54, 0x43, 0x50, 0x34]

def tcp6 : List UInt8 := [0x54, 0x43, 0x50, 0x36]

def unknown : List UInt8 := [0x55, 0x4E, 0x4B, 0x4E, 0x4F, 0x57, 0x4E]

section
variable [AddrText]

def v1Line (proto src dst : List UInt8) (sport dport : UInt16) : List UInt8 :=
  v1Prefix ++ proto ++ [0x20] ++ src ++ [0x20] ++ dst ++ [0x20] ++ decimal sport.toNat ++
    [0x20] ++ decimal dport.toNat ++ [0x0D, 0x0A]

def proxyV1Header (src dst : Endpoint) : List UInt8 :=
  match src.ip, dst.ip with
  | .v4 s, .v4 d => v1Line tcp4 (showV4 s) (showV4 d) src.port dst.port
  | s, d => v1Line tcp6 (showV6 (toV6 s)) (showV6 (toV6 d)) src.port dst.port

end

structure TlsInfo where
  serverName : Option (List UInt8)
  alpn : Option (List UInt8)
  version : Option (List UInt8)
  clientCn : Option (List UInt8)
  clientCert : Bool
  clientVerified : Bool

def maxTlvValue : Nat := 1024

def tlv (kind : UInt8) (value : List UInt8) : List UInt8 :=
  if maxTlvValue < value.length then [] else kind :: be 2 value.length ++ value

def tlv? (kind : UInt8) (value : Option (List UInt8)) : List UInt8 :=
  value.elim [] (tlv kind)

/-- The value of the `PP2_TYPE_SSL` TLV: the flags, the result of the verification, and the TLVs of
the version and the common name. -/
def sslValue (info : TlsInfo) : List UInt8 :=
  let flags : UInt8 := if info.clientCert then 0x03 else 0x01
  let verify := if info.clientCert && !info.clientVerified then 1 else 0
  let cn := if !info.clientCert || info.clientVerified then info.clientCn else none
  flags :: be 4 verify ++ tlv? 0x21 info.version ++ tlv? 0x22 cn

def tlsTlvs (info : TlsInfo) : List UInt8 :=
  tlv? 0x01 info.alpn ++ tlv? 0x02 info.serverName ++ tlv 0x20 (sslValue info)

def v2Addrs (src dst : IpAddr) : UInt8 × List UInt8 :=
  match src, dst with
  | .v4 s, .v4 d => (0x10, be 4 s.toNat ++ be 4 d.toNat)
  | s, d => (0x20, be 16 (toV6 s).toNat ++ be 16 (toV6 d).toNat)

variable (src dst : Endpoint) (buf : List UInt8)

def v2Header (tls : Option TlsInfo) (dgram : Bool) : List UInt8 :=
  let tlvs := tls.elim [] tlsTlvs
  -- without room for the 16-bit length, no TLVs
  let tlvs := if tlvs.length + 4 + 36 > 65535 then [] else tlvs
  let (family, addrs) := v2Addrs src.ip dst.ip
  v2Signature ++ [0x21] ++ [family ||| if dgram then 0x02 else 0x01] ++
    be 2 (addrs.length + 4 + tlvs.length) ++ addrs ++ be 2 src.port.toNat ++
    be 2 dst.port.toNat ++ tlvs

def proxyV2HeaderWith (tls : Option TlsInfo) : List UInt8 :=
  v2Header src dst tls false

def proxyV2DgramHeader : List UInt8 :=
  v2Header src dst none true

/-! ## Reading headers -/

def v1Max : Nat := 107

def v2MaxPayload : Nat := 4096

inductive Version where
  | v1
  | v2
deriving DecidableEq

inductive Start where
  | more
  | plain
  | header (v : Version)
deriving DecidableEq

def classify : Start :=
  if buf = [] then .more
  else if buf.take v2Signature.length = v2Signature.take buf.length then
    if v2Signature.length ≤ buf.length then .header .v2 else .more
  else if buf.take v1Prefix.length = v1Prefix.take buf.length then
    if v1Prefix.length ≤ buf.length then .header .v1 else .more
  else .plain

structure Header where
  version : Version
  len : Nat
  addrs : Option (Endpoint × Endpoint)
deriving DecidableEq

inductive Parsed where
  | more
  | notHeader
  | header (h : Header)
  | invalid (why : String)
deriving DecidableEq

def isUtf8 (l : List UInt8) : Bool := (ByteArray.mk l.toArray).validateUTF8

def crlfAt : List UInt8 → Option Nat
  | a :: b :: l => if a = 0x0D ∧ b = 0x0A then some 0 else (crlfAt (b :: l)).map (· + 1)
  | _ => none

def port (s : List UInt8) : Option UInt16 :=
  if s = [] ∨ 5 < s.length ∨ s.any (fun b => !isDigit b) ∨
      (1 < s.length ∧ s.head? = some 0x30) then none
  else if ofDecimal s ≤ 65535 then some (ofNat (ofDecimal s)) else none

section
variable [AddrText]

def v1Ips (proto src dst : List UInt8) : Option (IpAddr × IpAddr) :=
  if proto = tcp4 then do return (.v4 (← parseV4 src), .v4 (← parseV4 dst))
  else do return (.v6 (← parseV6 src), .v6 (← parseV6 dst))

def v1Fields (len : Nat) (proto : List UInt8) (fields : List (List UInt8)) : Parsed :=
  match fields with
  | [src, dst, sport, dport] =>
    match port sport, port dport with
    | some sport, some dport =>
      match v1Ips proto src dst with
      | some (s, d) => .header ⟨.v1, len, some (.new s sport, .new d dport)⟩
      | none => .invalid "v1 header has a bad address"
    | _, _ => .invalid "v1 header has a bad port"
  | _ => .invalid "v1 header needs 2 addresses and 2 ports"

def parseV1 (buf : List UInt8) : Parsed :=
  match crlfAt (buf.take v1Max) with
  | none => if v1Max ≤ buf.length then .invalid "v1 header longer than 107 bytes" else .more
  | some stop =>
    if isUtf8 (buf.take stop) = false then .invalid "v1 header is not text"
    else
      match ((buf.take stop).splitOn 0x20).tail with
      | [] => .invalid "v1 header has an unknown protocol (TCP4, TCP6 or UNKNOWN)"
      | proto :: fields =>
        -- whatever follows UNKNOWN is ignored
        if proto = unknown then .header ⟨.v1, stop + 2, none⟩
        else if proto = tcp4 ∨ proto = tcp6 then v1Fields (stop + 2) proto fields
        else .invalid "v1 header has an unknown protocol (TCP4, TCP6 or UNKNOWN)"

end

def be16 (i : Nat) : Nat := ofBe ((buf.drop i).take 2)

def v4At (i : Nat) : IpAddr :=
  .v4 (BitVec.ofNat 32 (ofBe ((buf.drop i).take 4)))

def v6At (i : Nat) : IpAddr :=
  .v6 (BitVec.ofNat 128 (ofBe ((buf.drop i).take 16)))

def v2Body (len : Nat) (family transport : UInt8) (body : List UInt8) : Parsed :=
  -- an unspecified transport or family, or AF_UNIX: nothing rproxy can use
  if transport = 0 ∨ family = 0 ∨ family = 3 then .header ⟨.v2, len, none⟩
  else if family = 1 then
    if body.length < 12 then .invalid "v2 header too short for IPv4 addresses"
    else .header ⟨.v2, len, some (.new (v4At body 0) (ofNat (be16 body 8)),
      .new (v4At body 4) (ofNat (be16 body 10)))⟩
  else
    if body.length < 36 then .invalid "v2 header too short for IPv6 addresses"
    else .header ⟨.v2, len, some (.new (v6At body 0) (ofNat (be16 body 32)),
      .new (v6At body 16) (ofNat (be16 body 34)))⟩

def parseV2 (dgram : Bool) : Parsed :=
  if buf.length < 16 then .more
  else
    let command := buf.getD 12 0
    let family := buf.getD 13 0 >>> 4
    let transport := buf.getD 13 0 &&& 0x0F
    let payload := be16 buf 14
    if command >>> 4 ≠ 2 then .invalid "v2 header has an unknown version"
    else if 1 < command &&& 0x0F then .invalid "v2 header has an unknown command"
    else if v2MaxPayload < payload then
      .invalid "v2 header longer than 4096 bytes after the fixed part"
    else if buf.length < 16 + payload then .more
    else if 3 < family ∨ 2 < transport then
      .invalid "v2 header has an unknown address family or transport"
    -- LOCAL: the front end's own connection, whose addresses are ignored
    else if command &&& 0x0F = 0 then .header ⟨.v2, 16 + payload, none⟩
    else if transport = 2 ∧ dgram = false then
      .invalid "v2 header of a datagram (UDP) on a TCP connection"
    else if transport = 1 ∧ dgram = true then
      .invalid "v2 header of a stream (TCP) in a datagram"
    else v2Body (16 + payload) family transport ((buf.take (16 + payload)).drop 16)

def parse [AddrText] (buf : List UInt8) : Parsed :=
  match classify buf with
  | .more => .more
  | .plain => .notHeader
  | .header .v1 => parseV1 buf
  | .header .v2 => parseV2 buf false

def parseDgram (datagram : List UInt8) : Parsed :=
  match classify datagram with
  | .more => .notHeader
  | .plain => .notHeader
  | .header .v1 => .invalid "PROXY v1 header in a datagram (v1 has no UDP)"
  | .header .v2 =>
    match parseV2 datagram true with
    | .more => .invalid "v2 header longer than the datagram"
    | parsed => parsed

end Rproxy.ProxyHeader
