import Rproxy.Data.Bytes
import Rproxy.Data.Windows

/-!
# Frames of the DPDK path

`packet.rs` reads Ethernet frames with ARP, IPv4/UDP and ICMP echo in them and rewrites them in
place. A frame is the list of its bytes.
-/

namespace Rproxy.Dpdk
open Windows (slice write)

/-! ## What a frame holds -/

abbrev Octets (n : ℕ) := { l : List UInt8 // l.length = n }

abbrev Mac := Octets 6

abbrev Ipv4 := Octets 4

structure SocketAddrV4 where
  ip : Ipv4
  port : UInt16
  deriving DecidableEq

def ethHdr : ℕ := 14

def etherTypeIpv4 : UInt16 := 0x0800

def etherTypeArp : UInt16 := 0x0806

def arpLen : ℕ := 28

def ttl : UInt8 := 64

structure Arp where
  op : UInt16
  senderMac : Mac
  senderIp : Ipv4
  targetIp : Ipv4
  deriving DecidableEq

structure Udp4 where
  srcMac : Mac
  src : SocketAddrV4
  dst : SocketAddrV4
  l3 : ℕ
  l4 : ℕ
  payload : ℕ
  deriving DecidableEq

inductive Frame
  | arp (a : Arp)
  | udp (u : Udp4)
  | echo (src dst : Ipv4) (l3 : ℕ)
  | fragment
  | other
  | malformed
  deriving DecidableEq

def word (w : List UInt8) : UInt16 := UInt16.ofNat (Bytes.ofBe w)

def be16 (b : List UInt8) (i : ℕ) : Option UInt16 := (slice b i (i + 2)).map word

def octetsAt (n : ℕ) (b : List UInt8) (i : ℕ) : Option (Octets n) :=
  if h : i + n ≤ b.length then some ⟨Windows.window b i n, Windows.length_window h⟩ else none

def ipAt (b : List UInt8) (i : ℕ) : Option Ipv4 := octetsAt 4 b i

def macAt (b : List UInt8) (i : ℕ) : Option Mac := octetsAt 6 b i

/-! ## Checksums -/

def asChunks : List UInt8 → List UInt16 × List UInt8
  | a :: b :: l => (word [a, b] :: (asChunks l).1, (asChunks l).2)
  | l => ([], l)

def addAll (words : List UInt16) (acc : UInt32) : UInt32 :=
  words.foldl (fun acc w => acc + w.toUInt32) acc

def sum (data : List UInt8) (acc : UInt32) : UInt32 :=
  match asChunks data with
  | (words, [last]) => addAll words acc + last.toUInt32 <<< 8
  | (words, _) => addAll words acc

lemma toNat_foldRound (acc : UInt32) : ((acc &&& (0xffff : UInt32)) + acc >>> 16).toNat =
    acc.toNat % 65536 + acc.toNat / 65536 := by
  have hacc : acc.toNat < 2 ^ 32 := acc.toNat_lt
  show ((acc.toNat &&& 2 ^ 16 - 1) + acc.toNat >>> 16) % 2 ^ 32 = _
  rw [Nat.and_two_pow_sub_one_eq_mod]
  omega

def fold (acc : UInt32) : UInt16 :=
  if 0xffff < acc then fold ((acc &&& (0xffff : UInt32)) + acc >>> 16) else acc.toUInt16
termination_by acc.toNat
decreasing_by
  have hlt : (0xffff : UInt32).toNat < acc.toNat := UInt32.lt_iff_toNat_lt.mp ‹_›
  have hmax : (0xffff : UInt32).toNat = 65535 := rfl
  rw [toNat_foldRound]
  omega

def checksum (data : List UInt8) : UInt16 := ~~~fold (sum data 0)

def adjust (hc : UInt16) (old new : List UInt8) : UInt16 :=
  let acc := (~~~hc).toUInt32
  let acc := addAll ((asChunks old).1.map fun w => ~~~w) acc
  let acc := addAll (asChunks new).1 acc
  ~~~fold acc

def sentAs (c : UInt16) : UInt16 := if c = 0 then 0xffff else c

def udpChecksum (f : List UInt8) (u : Udp4) : Option UInt16 := do
  let len := u.payload + 8
  let acc := sum (← slice f (u.l3 + 12) (u.l3 + 20)) 0
  let acc := acc + (17 + UInt32.ofNat len)
  let acc := sum (← slice f u.l4 (u.l4 + 6)) acc
  let acc := sum (← slice f (u.l4 + 8) (u.l4 + len)) acc
  return sentAs (~~~fold acc)

def checksumsOk (f : List UInt8) (u : Udp4) : Option Bool := do
  let ihl := u.l4 - u.l3
  if checksum (← slice f u.l3 (u.l3 + ihl)) ≠ 0 then
    return false
  else
    let sent ← be16 f (u.l4 + 6)
    if sent = 0 then
      return true
    else
      return sent = (← udpChecksum f u)

def parseArp (f : List UInt8) : Option Frame :=
  let a := ethHdr
  if f.length < a + arpLen then
    return .malformed
  else do
    if (← be16 f a) ≠ 1 ∨ (← be16 f (a + 2)) ≠ etherTypeIpv4 ∨ (← f[a + 4]?) ≠ 6 ∨
        (← f[a + 5]?) ≠ 4 then
      return .other
    else
      return .arp ⟨← be16 f (a + 6), ← macAt f (a + 8), ← ipAt f (a + 14), ← ipAt f (a + 24)⟩

def parseL4 (f : List UInt8) (ihl total : ℕ) (src dst : Ipv4) (protocol : UInt8) : Option Frame :=
  let l3 := ethHdr
  let l4 := l3 + ihl
  if protocol = 17 then
    if total < ihl + 8 then
      return .malformed
    else do
      let len := (← be16 f (l4 + 4)).toNat
      if len < 8 ∨ len > total - ihl then
        return .malformed
      else
        return .udp ⟨← macAt f 6, ⟨src, ← be16 f l4⟩, ⟨dst, ← be16 f (l4 + 2)⟩, l3, l4, len - 8⟩
  else if protocol = 1 ∧ ihl + 8 ≤ total then do
    if (← f[l4]?) = 8 ∧ (← f[l4 + 1]?) = 0 then
      return .echo src dst l3
    else
      return .other
  else
    return .other

def parseIpv4 (f : List UInt8) : Option Frame :=
  let l3 := ethHdr
  if f.length < l3 + 20 then
    return .malformed
  else do
    let first ← f[l3]?
    let version := first >>> 4
    let ihl := (first &&& 0x0f).toNat * 4
    let total := (← be16 f (l3 + 2)).toNat
    -- frames may carry Ethernet padding after the datagram
    if version ≠ 4 ∨ ihl < 20 ∨ total < ihl ∨ f.length < l3 + total then
      return .malformed
    else if checksum (← slice f l3 (l3 + ihl)) ≠ 0 then
      return .malformed
    else
      let frag ← be16 f (l3 + 6)
      if frag &&& 0x2000 ≠ 0 ∨ frag &&& 0x1fff ≠ 0 then
        return .fragment
      else
        parseL4 f ihl total (← ipAt f (l3 + 12)) (← ipAt f (l3 + 16)) (← f[l3 + 9]?)

def parse (f : List UInt8) : Option Frame :=
  if f.length < ethHdr then
    return .malformed
  else do
    let etherType ← be16 f 12
    if etherType = etherTypeArp then
      parseArp f
    else if etherType = etherTypeIpv4 then
      parseIpv4 f
    else
      return .other

def writeBe16 (f : List UInt8) (i : ℕ) (n : UInt16) : Option (List UInt8) :=
  write f i (Bytes.be 2 n.toNat)

def setIpHeader (f : List UInt8) (l3 ihl : ℕ) (src dst : Ipv4) : Option (List UInt8) := do
  let f ← write f (l3 + 8) [ttl]
  let f ← write f (l3 + 12) src.1
  let f ← write f (l3 + 16) dst.1
  let f ← write f (l3 + 10) [0, 0]
  let c := checksum (← slice f l3 (l3 + ihl))
  writeBe16 f (l3 + 10) c

def covered (f : List UInt8) (u : Udp4) : Option (List UInt8) := do
  return (← slice f (u.l3 + 12) (u.l3 + 20)) ++ (← slice f u.l4 (u.l4 + 4))

/-- Rewrites the datagram `u` of `f` in place to go from `src` to `dst`; the UDP checksum is
updated, and one that is 0 stays 0. -/
def rewriteUdp (f : List UInt8) (u : Udp4) (srcMac dstMac : Mac) (src dst : SocketAddrV4) :
    Option (List UInt8) := do
  let f ← write f 0 dstMac.1
  let f ← write f 6 srcMac.1
  let ihl := u.l4 - u.l3
  let old ← covered f u
  let f ← setIpHeader f u.l3 ihl src.ip dst.ip
  let f ← writeBe16 f u.l4 src.port
  let f ← writeBe16 f (u.l4 + 2) dst.port
  let hc ← be16 f (u.l4 + 6)
  if hc ≠ 0 then
    let new ← covered f u
    writeBe16 f (u.l4 + 6) (sentAs (adjust hc old new))
  else
    return f

def payload (f : List UInt8) (u : Udp4) : Option (List UInt8) :=
  slice f (u.l4 + 8) (u.l4 + 8 + u.payload)

end Rproxy.Dpdk
