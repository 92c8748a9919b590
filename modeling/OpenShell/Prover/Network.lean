import OpenShell.Schema.Document
import OpenShell.Util.IpAddr

/-!
# Destination addresses

The address ranges of the containment prover (`containment/ip.rs`). A
destination is 128 bits and a family flag, as in the solver's encoding; a
network fixes the family and a prefix of the bits.
-/

namespace OpenShell.Prover

open OpenShell.Schema

/-- An address range: the bits under the mask, in one family. -/
structure Network where
  address : BitVec 128
  netPrefix : Nat
  v6 : Bool
  deriving DecidableEq

namespace Network

def fromIp : IpAddr → Network
  | .v4 bits => { address := bits.setWidth 128, netPrefix := 32, v6 := false }
  | .v6 bits => { address := bits, netPrefix := 128, v6 := true }

/-- An address, alone or followed by `/` and the length of the prefix. -/
def parse (value : String) : Option Network :=
  match splitOnceChar value '/' with
  | none => (parseIpAddr value).map fromIp
  | some (address, len) =>
    (parseIpAddr address).bind fun ip =>
      (parseU32 len).bind fun len =>
        if len > (fromIp ip).netPrefix then none else some { fromIp ip with netPrefix := len }

/-- For IPv4 the mask also fixes the unused high bits. -/
def mask (net : Network) : BitVec 128 :=
  let width := if net.v6 then 128 else 32
  if net.netPrefix = 0 then 0 else BitVec.allOnes 128 <<< (width - net.netPrefix)

def overlaps (net other : Network) : Bool :=
  net.v6 == other.v6 &&
    net.address &&& net.mask &&& other.mask == other.address &&& net.mask &&& other.mask

/-- An IPv4 range as it appears inside `::ffff:0:0/96`. -/
def mappedV4 (v4 : Network) : Network :=
  { v6 := true, address := 0xffff#128 <<< 32 ||| v4.address, netPrefix := 96 + v4.netPrefix }

end Network

def hardV4 : List String := ["127.0.0.0/8", "169.254.0.0/16", "0.0.0.0/32"]

def hardV6 : List String := ["::/128", "::1/128", "fe80::/10"]

def internalV4 : List String :=
  ["10.0.0.0/8", "172.16.0.0/12", "192.168.0.0/16", "192.0.2.0/24", "198.51.100.0/24",
    "203.0.113.0/24", "255.255.255.255/32", "100.64.0.0/10", "192.0.0.0/24", "198.18.0.0/15"]

-- The `unwrap`s on these tables succeed.
example : (hardV4 ++ hardV6 ++ internalV4).all (fun range => (Network.parse range).isSome) := by
  decide

/-- A destination address in the solver's encoding. -/
structure Destination where
  bits : BitVec 128
  v6 : Bool
  deriving DecidableEq

namespace Destination

def concrete (ip : IpAddr) : Destination :=
  { bits := (Network.fromIp ip).address, v6 := (Network.fromIp ip).v6 }

/-- `assert_domain`: an IPv4 destination has no high bits. -/
def inDomain (ip : Destination) : Bool := ip.v6 || ip.bits.extractLsb' 32 96 == 0

/-- `decode`: the address a model's destination stands for. -/
def decode (ip : Destination) : Option IpAddr :=
  if ip.v6 then some (.v6 ip.bits)
  else if (ip.bits.setWidth 64).toNat < 2 ^ 32 then some (.v4 (ip.bits.setWidth 32)) else none

/-- `matches`. -/
def within (ip : Destination) (net : Network) : Bool :=
  ip.v6 == net.v6 && ip.bits &&& net.mask == net.address &&& net.mask

def ranges (ip : Destination) (ranges : List String) : Bool :=
  ranges.any fun range => (Network.parse range).any ip.within

def mappedV4Ranges (ip : Destination) (ranges : List String) : Bool :=
  ranges.any fun range => (Network.parse range).any fun v4 => ip.within v4.mappedV4

def hardBlocked (ip : Destination) : Bool :=
  ip.ranges hardV4 || ip.ranges hardV6 || ip.mappedV4Ranges hardV4

def internal (ip : Destination) : Bool :=
  ip.hardBlocked || ip.ranges internalV4 || ip.mappedV4Ranges internalV4 || ip.ranges ["fc00::/7"]

end Destination

/-- Why the address rules of an endpoint are outside the model. -/
def unsupportedEndpoint (endpoint : NetworkEndpoint) : Option String :=
  if containsChar endpoint.host '*' &&
      endpoint.host.toList.all (fun c => ('0' ≤ c && c ≤ '9') || c == '.' || c == '*') then
    some "uses an IP-literal wildcard whose address resolution is not modeled"
  else endpoint.allowedIps.findSome? fun raw =>
    match Network.parse raw with
    | none => some ("has invalid allowed_ips entry '" ++ raw ++ "'")
    | some net =>
      let blocked := (hardV4 ++ hardV6).filterMap Network.parse ++
        (hardV4.filterMap Network.parse).map Network.mappedV4
      if blocked.any net.overlaps then
        some ("has allowed_ips entry '" ++ raw ++ "' overlapping a runtime always-blocked range")
      else none

/-- The addresses a concrete request of an endpoint is tried with. -/
def sampleAddresses (endpoint : NetworkEndpoint) : List IpAddr :=
  [.v4 0x08080808#32, .v4 0x0A000001#32] ++
    match endpoint.allowedIps.head?.bind Network.parse with
    | none => []
    | some net =>
      let address := net.address &&& net.mask
      [if net.v6 then .v6 address else .v4 (address.setWidth 32)]

theorem inDomain_concrete (ip : IpAddr) : (Destination.concrete ip).inDomain = true := by
  cases ip with
  | v4 bits =>
    have hzero : (bits.setWidth 128).extractLsb' 32 96 = 0 := by
      ext i hi
      simp
    simp [Destination.inDomain, Destination.concrete, Network.fromIp, hzero]
  | v6 bits => rfl

end OpenShell.Prover
