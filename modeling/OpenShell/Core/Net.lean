import OpenShell.Util.IpNet

/-!
# Addresses that are always blocked, and internal ones

The predicates of `openshell-core/src/net.rs` on one address, and on a network.
-/

namespace OpenShell.Core

/-- `Ipv4Addr::is_loopback`. -/
def isLoopbackV4 (bits : BitVec 32) : Bool := bits.extractLsb' 24 8 == 127#8

/-- `Ipv4Addr::is_link_local`. -/
def isLinkLocalV4 (bits : BitVec 32) : Bool := bits.extractLsb' 16 16 == 0xA9FE#16

/-- `Ipv6Addr::to_ipv4_mapped`. -/
def toIpv4Mapped (bits : BitVec 128) : Option (BitVec 32) :=
  if bits.extractLsb' 32 96 == 0xFFFF#96 then some (bits.extractLsb' 0 32) else none

def isLinkLocalIp : IpAddr → Bool
  | .v4 bits => isLinkLocalV4 bits
  | .v6 bits =>
    -- fe80::/10, or an IPv4-mapped 169.254.x.x
    if bits.extractLsb' 112 16 &&& 0xFFC0#16 == 0xFE80#16 then true
    else (toIpv4Mapped bits).any isLinkLocalV4

def isAlwaysBlockedIp : IpAddr → Bool
  | .v4 bits => isLoopbackV4 bits || isLinkLocalV4 bits || bits == 0#32
  | .v6 bits =>
    if bits == 1#128 || bits == 0#128 then true
    else if isLinkLocalIp (.v6 bits) then true
    else (toIpv4Mapped bits).any fun v4 => isLoopbackV4 v4 || v4 == 0#32

/-- `Ipv4Addr::is_private`. -/
def isPrivateV4 (bits : BitVec 32) : Bool :=
  bits.extractLsb' 24 8 == 10#8 || bits.extractLsb' 20 12 == 0xAC1#12 ||
    bits.extractLsb' 16 16 == 0xC0A8#16

/-- `Ipv4Addr::is_documentation`. -/
def isDocumentationV4 (bits : BitVec 32) : Bool :=
  bits.extractLsb' 8 24 == 0xC00002#24 || bits.extractLsb' 8 24 == 0xC63364#24 ||
    bits.extractLsb' 8 24 == 0xCB0071#24

def isInternalV4 (bits : BitVec 32) : Bool :=
  if isLoopbackV4 bits || isPrivateV4 bits || isLinkLocalV4 bits || bits == 0#32 ||
    isDocumentationV4 bits ||
      bits == 0xFFFFFFFF#32 then true
  else
    let octet (i : Nat) := bits.extractLsb' (24 - 8 * i) 8
    -- 100.64.0.0/10, 192.0.0.0/24 and 198.18.0.0/15
    if octet 0 == 100#8 && octet 1 &&& 0xC0#8 == 64#8 then true
    else if octet 0 == 192#8 && octet 1 == 0#8 && octet 2 == 0#8 then true
    else octet 0 == 198#8 && octet 1 &&& 0xFE#8 == 18#8

def isInternalIp : IpAddr → Bool
  | .v4 bits => isInternalV4 bits
  | .v6 bits =>
    if bits == 1#128 || bits == 0#128 then true
    else if isLinkLocalIp (.v6 bits) then true
    else if bits.extractLsb' 112 16 &&& 0xFE00#16 == 0xFC00#16 then true
    else (toIpv4Mapped bits).any isInternalV4

/-- `Ipv4Addr::to_ipv6_mapped`. -/
def toIpv6Mapped (bits : BitVec 32) : BitVec 128 := 0xFFFF#96 ++ bits

variable (ipv4 : NetCrate 32) (ipv6 : NetCrate 128)

variable {ipv4 ipv6} in
def isAlwaysBlockedNet : CrateNet ipv4 ipv6 → Bool
  | .v4 net =>
    0x7F000000#32 ≤ ipv4.broadcast net && ipv4.network net ≤ 0x7FFFFFFF#32 ||
      0xA9FE0000#32 ≤ ipv4.broadcast net && ipv4.network net ≤ 0xA9FEFFFF#32 ||
      ipv4.network net == 0#32
  | .v6 net =>
    ipv6.contains net 1#128 || ipv6.contains net 0#128 ||
      (ipv6.network net).extractLsb' 112 16 &&& 0xFFC0#16 == 0xFE80#16 ||
      ipv6.contains net 0xFE800000000000000000000000000000#128 ||
      (toIpv4Mapped (ipv6.network net)).any
        (fun v4 => isLoopbackV4 v4 || isLinkLocalV4 v4 || v4 == 0#32) ||
      ipv6.contains net (toIpv6Mapped 0x7F000001#32) ||
      ipv6.contains net (toIpv6Mapped 0xA9FE0000#32) || ipv6.contains net (toIpv6Mapped 0#32)

/-- The networks that are internal but may be allowed. -/
def nonHardInternalV4Nets : List ipv4.Net :=
  [ipv4.newAssert 0x0A000000#32 8, ipv4.newAssert 0xAC100000#32 12, ipv4.newAssert 0xC0A80000#32 16,
    ipv4.newAssert 0x64400000#32 10, ipv4.newAssert 0xC0000000#32 24,
    ipv4.newAssert 0xC0000200#32 24,
    ipv4.newAssert 0xC6120000#32 15, ipv4.newAssert 0xC6336400#32 24,
    ipv4.newAssert 0xCB007100#32 24, ipv4.newAssert 0xFFFFFFFF#32 32]

def ipv6UlaNet : ipv6.Net := ipv6.newAssert 0xFC000000000000000000000000000000#128 7

/-- `ipv4_nets_intersect` and `ipv6_nets_intersect`. -/
def netsIntersect {w : Nat} (crate : NetCrate w) (left right : crate.Net) : Bool :=
  crate.network left ≤ crate.broadcast right && crate.network right ≤ crate.broadcast left

def ipv4NetToMappedIpv6 (net : ipv4.Net) : ipv6.Net :=
  ipv6.newAssert (toIpv6Mapped (ipv4.network net)) (96 + ipv4.prefixLen net)

variable {ipv4 ipv6} in
def isInternalNet (net : CrateNet ipv4 ipv6) : Bool :=
  isAlwaysBlockedNet net || match net with
    | .v4 net => (nonHardInternalV4Nets ipv4).any (netsIntersect ipv4 net)
    | .v6 net => netsIntersect ipv6 net (ipv6UlaNet ipv6) ||
      (nonHardInternalV4Nets ipv4).any fun internal =>
        netsIntersect ipv6 net (ipv4NetToMappedIpv6 ipv4 ipv6 internal)

end OpenShell.Core
