import OpenShell.Core.NetRanges
import OpenShell.Prover.Network

/-!
# The prover's ranges and the runtime's

A network of the prover is one of the runtime's, written with 128 bits in both families.
So its tables name the runtime's lists, and two of its networks overlap if they have an
address in common.
-/

namespace OpenShell.Prover

open OpenShell.Schema OpenShell.Core Network

/-- A network as the prover writes it. -/
def Network.ofNet : IpNet → Network
  | .v4 net => ⟨net.addr.setWidth 128, net.prefixLen, false⟩
  | .v6 net => ⟨net.addr, net.prefixLen, true⟩

section Overlap

variable {net other : IpNet} {ip : IpAddr} {x y : Network}

theorem mask_of_ne (h : x.netPrefix ≠ 0) :
    x.mask = BitVec.allOnes 128 <<< ((if x.v6 then 128 else 32) - x.netPrefix) :=
  if_neg h

/-- The prover compares the bits that the addresses of a network share. -/
theorem within_ofNet : (Destination.concrete ip).within (ofNet net) = true ↔
    net.contains ip = true := by
  have hwide : ∀ bits : BitVec 32, (bits.setWidth 128).toNat = bits.toNat := fun bits =>
    BitVec.toNat_setWidth_of_le (by decide)
  unfold Destination.within Destination.concrete
  rw [Bool.and_eq_true, beq_iff_eq, beq_iff_eq]
  by_cases hzero : (ofNet net).netPrefix = 0
  · -- no bit is compared, and the whole family is in the network
    rw [show (ofNet net).mask = 0 from if_pos hzero]
    cases net <;> cases ip <;> simp_all [ofNet, fromIp, IpNet.contains, Subnet.contains_iff_div]
    all_goals omega
  · rw [mask_of_ne hzero, Subnet.and_mask_eq_iff]
    cases net <;> cases ip <;>
      simp [ofNet, fromIp, IpNet.contains, Subnet.contains_iff_div, hwide, -BitVec.toNat_setWidth]

theorem Network.mask_and_mask (hv6 : x.v6 = y.v6) (hle : x.netPrefix ≤ y.netPrefix) :
    x.mask &&& y.mask = x.mask := by
  by_cases hzero : x.netPrefix = 0
  · simp [mask, hzero]
  · rw [mask_of_ne hzero, mask_of_ne (show y.netPrefix ≠ 0 by omega), hv6]
    exact Subnet.mask_and_mask (Nat.sub_le_sub_left hle _)

theorem overlaps_def : x.overlaps y = true ↔
    x.v6 = y.v6 ∧ x.address &&& (x.mask &&& y.mask) = y.address &&& (x.mask &&& y.mask) := by
  rw [overlaps, Bool.and_eq_true, beq_iff_eq, beq_iff_eq, BitVec.and_assoc, BitVec.and_assoc]

/-- The one with the shorter prefix has the address of the other. -/
theorem exists_mem_of_overlaps (hle : (ofNet net).netPrefix ≤ (ofNet other).netPrefix)
    (h : (ofNet net).overlaps (ofNet other) = true) :
    ∃ ip, net.contains ip = true ∧ other.contains ip = true := by
  obtain ⟨ip, hip⟩ : ∃ ip, Destination.concrete ip = ⟨(ofNet other).address, (ofNet other).v6⟩ := by
    cases other with
    | v4 other => exact ⟨.v4 other.addr, rfl⟩
    | v6 other => exact ⟨.v6 other.addr, rfl⟩
  obtain ⟨hv6, hbits⟩ := overlaps_def.mp h
  rw [Network.mask_and_mask hv6 hle] at hbits
  refine ⟨ip, within_ofNet.mp ?_, within_ofNet.mp ?_⟩
  · simp [hip, Destination.within, hv6, hbits]
  · simp [hip, Destination.within]

theorem overlaps_iff : (ofNet net).overlaps (ofNet other) = true ↔
    ∃ ip, net.contains ip = true ∧ other.contains ip = true := by
  constructor
  · intro h
    rcases Nat.le_total (ofNet net).netPrefix (ofNet other).netPrefix with hle | hle
    · exact exists_mem_of_overlaps hle h
    · obtain ⟨hv6, hbits⟩ := overlaps_def.mp h
      rw [BitVec.and_comm (ofNet net).mask] at hbits
      obtain ⟨ip, hother, hnet⟩ :=
        exists_mem_of_overlaps hle (overlaps_def.mpr ⟨hv6.symm, hbits.symm⟩)
      exact ⟨ip, hnet, hother⟩
  · simp only [← within_ofNet, Destination.within, overlaps_def, Bool.and_eq_true, beq_iff_eq]
    rintro ⟨ip, ⟨hv6, hbits⟩, hv6', hbits'⟩
    refine ⟨hv6.symm.trans hv6', ?_⟩
    rw [← BitVec.and_assoc, ← hbits, BitVec.and_comm (ofNet net).mask,
      ← BitVec.and_assoc (ofNet other).address, ← hbits']
    ac_rfl

/-- Every range that is read is such a network. -/
theorem exists_ofNet_of_parse {raw : String} (h : Network.parse raw = some x) :
    ∃ net, x = ofNet net := by
  have hlen : ∀ ip : IpAddr, ∀ len ≤ (fromIp ip).netPrefix,
      ∃ net, { fromIp ip with netPrefix := len } = ofNet net
    | .v4 bits, len, hle => ⟨.v4 ⟨bits, len, hle⟩, rfl⟩
    | .v6 bits, len, hle => ⟨.v6 ⟨bits, len, hle⟩, rfl⟩
  unfold Network.parse at h
  split at h
  · obtain ⟨ip, -, rfl⟩ := Option.map_eq_some_iff.mp h
    exact hlen ip _ le_rfl
  · obtain ⟨ip, -, h⟩ := Option.bind_eq_some_iff.mp h
    obtain ⟨len, -, h⟩ := Option.bind_eq_some_iff.mp h
    obtain ⟨hle, ⟨⟩⟩ := Option.ite_none_left_eq_some.mp h
    exact hlen ip len (not_lt.mp hle)

end Overlap

/-- The ranges that are always blocked, as `unsupported_endpoint` lists them. -/
def blockedNetworks : List Network :=
  (hardV4 ++ hardV6).filterMap Network.parse ++
    (hardV4.filterMap Network.parse).map Network.mappedV4

/-- The networks of the runtime they stand for. -/
def hardNets : List IpNet := hardV4Nets.map .v4 ++ hardV6Nets.map .v6

def internalNets : List IpNet := internalV4Nets.map .v4 ++ internalV6Nets.map .v6

theorem isAlwaysBlockedIp_iff {ip : IpAddr} : isAlwaysBlockedIp ip = true ↔
    ∃ net ∈ hardNets, net.contains ip = true := by
  cases ip with
  | v4 addr => simp [isAlwaysBlockedIp_v4_iff, hardNets, or_and_right, exists_or, IpNet.contains]
  | v6 addr => simp [isAlwaysBlockedIp_v6_iff, hardNets, or_and_right, exists_or, IpNet.contains]

theorem isInternalIp_iff {ip : IpAddr} : isInternalIp ip = true ↔
    ∃ net ∈ internalNets, net.contains ip = true := by
  cases ip with
  | v4 addr =>
    simp [isInternalIp, isInternalV4_iff, internalNets, or_and_right, exists_or, IpNet.contains]
  | v6 addr => simp [isInternalIp_v6_iff, internalNets, or_and_right, exists_or, IpNet.contains]

theorem blockedNetworks_perm : blockedNetworks.Perm (hardNets.map ofNet) := by decide

section Tables

variable {ip : IpAddr} {nets : List IpNet} {networks : List Network} {x : Network}

theorem any_within (h : networks.Perm (nets.map ofNet)) :
    networks.any (Destination.concrete ip).within = true ↔
      ∃ net ∈ nets, net.contains ip = true := by
  simp only [h.any_eq, List.any_map, List.any_eq_true, Function.comp_apply, within_ofNet]

theorem ranges_eq (dest : Destination) (texts : List String) :
    dest.ranges texts = (texts.filterMap Network.parse).any dest.within ∧
      dest.mappedV4Ranges texts =
        ((texts.filterMap Network.parse).map mappedV4).any dest.within := by
  rw [List.any_map, List.any_filterMap, List.any_filterMap]
  exact ⟨rfl, rfl⟩

theorem hardBlocked_eq (dest : Destination) :
    dest.hardBlocked = blockedNetworks.any dest.within := by
  simp only [Destination.hardBlocked, ranges_eq, blockedNetworks, List.filterMap_append,
    List.any_append]

theorem hardBlocked_concrete : (Destination.concrete ip).hardBlocked = isAlwaysBlockedIp ip := by
  rw [Bool.eq_iff_iff, isAlwaysBlockedIp_iff, ← any_within blockedNetworks_perm, hardBlocked_eq]

theorem internal_concrete : (Destination.concrete ip).internal = isInternalIp ip := by
  have hperm : (blockedNetworks ++ internalV4.filterMap Network.parse ++
      (internalV4.filterMap Network.parse).map mappedV4 ++
      ["fc00::/7"].filterMap Network.parse).Perm
        (internalNets.map ofNet) := by decide
  rw [Bool.eq_iff_iff, isInternalIp_iff, ← any_within hperm]
  simp only [Destination.internal, hardBlocked_eq, ranges_eq, List.any_append]

/-- A range that overlaps no blocked one has no blocked address. -/
theorem not_blocked_of_parse {raw : String} (h : Network.parse raw = some x)
    (hno : blockedNetworks.any x.overlaps = false)
    (hip : (Destination.concrete ip).within x = true) : isAlwaysBlockedIp ip = false := by
  obtain ⟨net, rfl⟩ := exists_ofNet_of_parse h
  rw [← Bool.not_eq_true, isAlwaysBlockedIp_iff]
  rintro ⟨other, hother, hcontains⟩
  have hmem := blockedNetworks_perm.mem_iff.mpr (List.mem_map_of_mem hother)
  exact List.any_eq_false.mp hno _ hmem (overlaps_iff.mpr ⟨ip, within_ofNet.mp hip, hcontains⟩)

theorem noOverlap_of_supported {endpoint : NetworkEndpoint}
    (h : unsupportedEndpoint endpoint = none) :
    ∀ raw ∈ endpoint.allowedIps,
      ∃ x, Network.parse raw = some x ∧ blockedNetworks.any x.overlaps = false := by
  intro raw hraw
  unfold unsupportedEndpoint at h
  split at h
  · cases h
  have hentry := List.findSome?_eq_none_iff.mp h raw hraw
  cases hparse : Network.parse raw with
  | none => simp [hparse] at hentry
  | some x =>
    refine ⟨x, rfl, ?_⟩
    simpa [hparse, blockedNetworks] using hentry

end Tables

/-- The prover classifies every address as the runtime does. The networks it reads are the
runtime's, two of them overlap if an address lies in both, and an allowed range it finds no
overlap for, as for each range of an endpoint it supports, has no address that is always blocked. -/
theorem addresses_match_runtime :
    (∀ ip, (Destination.concrete ip).hardBlocked = isAlwaysBlockedIp ip ∧
        (Destination.concrete ip).internal = isInternalIp ip) ∧
      (∀ raw x, Network.parse raw = some x → ∃ net, x = ofNet net) ∧
      (∀ net other, (ofNet net).overlaps (ofNet other) = true ↔
        ∃ ip, net.contains ip = true ∧ other.contains ip = true) ∧
      (∀ raw x ip, Network.parse raw = some x → blockedNetworks.any x.overlaps = false →
        (Destination.concrete ip).within x = true → isAlwaysBlockedIp ip = false) ∧
      ∀ endpoint, unsupportedEndpoint endpoint = none → ∀ raw ∈ endpoint.allowedIps,
        ∃ x, Network.parse raw = some x ∧ blockedNetworks.any x.overlaps = false :=
  ⟨fun _ => ⟨hardBlocked_concrete, internal_concrete⟩, fun _ _ => exists_ofNet_of_parse, fun _ _ =>
    overlaps_iff, fun _ _ _ => not_blocked_of_parse, fun _ => noOverlap_of_supported⟩

end OpenShell.Prover
