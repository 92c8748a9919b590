import OpenShell.Core.Net

/-!
# The networks of blocked and of internal addresses

The predicates on an address look at its bits, those on a network compare its ends or look
for one address in it. Both come down to two lists of networks: an address has the property
if it lies in one of them, and a network if it meets one. The networks of the `ipnet` crate
enter only through the networks they stand for (`netsIntersect_eq`).
-/

namespace OpenShell.Core

/-- `127.0.0.0/8`, `169.254.0.0/16` and `0.0.0.0`. -/
def hardV4Nets : List (Subnet 32) :=
  [.newAssert 0x7F000000#32 8, .newAssert 0xA9FE0000#32 16, .newAssert 0#32 32]

/-- The IPv4-mapped addresses of a network. -/
def mappedNet (net : Subnet 32) : Subnet 128 :=
  .newAssert (toIpv6Mapped net.network) (96 + net.prefixLen)

/-- The same as IPv4-mapped networks, and `::`, `::1` and `fe80::/10`. -/
def hardV6Nets : List (Subnet 128) :=
  hardV4Nets.map mappedNet ++
    [.newAssert 0#128 128, .newAssert 1#128 128,
      .newAssert 0xFE800000000000000000000000000000#128 10]

/-- The internal networks that may be allowed, as plain networks. -/
def nonHardV4Nets : List (Subnet 32) := nonHardInternalV4Nets (.subnets 32)

def ulaNet : Subnet 128 := .newAssert 0xFC000000000000000000000000000000#128 7

def internalV4Nets : List (Subnet 32) := hardV4Nets ++ nonHardV4Nets

def internalV6Nets : List (Subnet 128) := hardV6Nets ++ (nonHardV4Nets.map mappedNet ++ [ulaNet])

section V4

variable {addr : BitVec 32}

/-- The leading bits of an address. -/
theorem extractLsb'_beq_iff {k m : Nat} {value : BitVec m} (h : k + m = 32) :
    (addr.extractLsb' k m == value) = true ↔ addr.toNat / 2 ^ k = value.toNat := by
  have hlt : addr.toNat / 2 ^ k < 2 ^ m :=
    Nat.div_lt_of_lt_mul (by rw [← Nat.pow_add, h]; exact addr.isLt)
  rw [beq_iff_eq, ← BitVec.toNat_inj, BitVec.extractLsb'_toNat, Nat.shiftRight_eq_div_pow,
    Nat.mod_eq_of_lt hlt]

theorem hardV4_iff : (isLoopbackV4 addr || isLinkLocalV4 addr || addr == 0#32) = true ↔
    ∃ net ∈ hardV4Nets, net.contains addr = true := by
  simp only [isLoopbackV4, isLinkLocalV4, Bool.or_eq_true,
    extractLsb'_beq_iff (show 24 + 8 = 32 from rfl),
    extractLsb'_beq_iff (show 16 + 16 = 32 from rfl), hardV4Nets, List.exists_mem_cons_iff,
    List.not_mem_nil, false_and,
    exists_false, or_false, Subnet.contains_iff_div, Subnet.newAssert, or_assoc, beq_iff_eq,
    ← BitVec.toNat_inj]
  norm_num

theorem isAlwaysBlockedIp_v4_iff :
    isAlwaysBlockedIp (.v4 addr) = true ↔ ∃ net ∈ hardV4Nets, net.contains addr = true :=
  hardV4_iff

theorem isInternalV4_iff : isInternalV4 addr = true ↔
    ∃ net ∈ internalV4Nets, net.contains addr = true := by
  have hmask : ∀ octet : BitVec 8, ((octet &&& 0xC0#8 == 64#8) = true ↔ octet.toNat / 64 = 1) ∧
      ((octet &&& 0xFE#8 == 18#8) = true ↔ octet.toNat / 2 = 9) := by decide
  -- the ranges that are compared octet by octet
  have hcgnat : (addr.extractLsb' 24 8 == 100#8 && addr.extractLsb' 16 8 &&& 0xC0#8 == 64#8) =
      true ↔ addr.toNat / 2 ^ 22 = 401 := by
    rw [Bool.and_eq_true, (hmask _).1, extractLsb'_beq_iff rfl, BitVec.extractLsb'_toNat,
      Nat.shiftRight_eq_div_pow]
    norm_num
    omega
  have hietf : (addr.extractLsb' 24 8 == 192#8 && addr.extractLsb' 16 8 == 0#8 &&
      addr.extractLsb' 8 8 == 0#8) = true ↔ addr.toNat / 2 ^ 8 = 12582912 := by
    simp only [Bool.and_eq_true, extractLsb'_beq_iff (show 24 + 8 = 32 from rfl), beq_iff_eq,
      ← BitVec.toNat_inj, BitVec.extractLsb'_toNat, Nat.shiftRight_eq_div_pow]
    norm_num
    omega
  have hbenchmark : (addr.extractLsb' 24 8 == 198#8 && addr.extractLsb' 16 8 &&& 0xFE#8 == 18#8) =
      true ↔ addr.toNat / 2 ^ 17 = 25353 := by
    rw [Bool.and_eq_true, (hmask _).2, extractLsb'_beq_iff rfl, BitVec.extractLsb'_toNat,
      Nat.shiftRight_eq_div_pow]
    norm_num
    omega
  have hlast : (addr == 0xFFFFFFFF#32) = true ↔ addr.toNat = 4294967295 := by
    rw [beq_iff_eq, ← BitVec.toNat_inj]
    rfl
  simp only [internalV4Nets, List.mem_append, or_and_right, exists_or, ← hardV4_iff]
  simp only [isInternalV4, Bool.if_true_left, Bool.or_eq_true, decide_eq_true_eq, Nat.mul_zero,
    Nat.mul_one, Nat.sub_zero,
    Nat.reduceMul, Nat.reduceSub, hcgnat, hietf, hbenchmark, hlast, isPrivateV4, isDocumentationV4,
    extractLsb'_beq_iff (show 24 + 8 = 32 from rfl),
    extractLsb'_beq_iff (show 20 + 12 = 32 from rfl),
    extractLsb'_beq_iff (show 16 + 16 = 32 from rfl),
    extractLsb'_beq_iff (show 8 + 24 = 32 from rfl),
    nonHardV4Nets, nonHardInternalV4Nets, NetCrate.subnets, List.exists_mem_cons_iff,
    List.not_mem_nil, false_and, exists_false, or_false, Subnet.contains_iff_div, Subnet.newAssert]
  norm_num
  apply iff_of_eq
  ac_rfl

end V4

section V6

variable {addr : BitVec 128}

theorem toNat_toIpv6Mapped (bits : BitVec 32) :
    (toIpv6Mapped bits).toNat = 0xFFFF00000000 + bits.toNat := by
  rw [toIpv6Mapped, BitVec.toNat_append, ← Nat.shiftLeft_add_eq_or_of_lt bits.isLt]
  rfl

theorem toIpv4Mapped_any_iff {p : BitVec 32 → Bool} :
    (toIpv4Mapped addr).any p = true ↔ ∃ v4, addr = toIpv6Mapped v4 ∧ p v4 = true := by
  have hlow : ∀ v4, addr = toIpv6Mapped v4 → addr.extractLsb' 32 96 = 0xFFFF#96 ∧
      addr.extractLsb' 0 32 = v4 := by
    rintro v4 rfl
    simp only [← BitVec.toNat_inj, BitVec.extractLsb'_toNat, toNat_toIpv6Mapped,
      Nat.shiftRight_eq_div_pow]
    norm_num
    omega
  unfold toIpv4Mapped
  split
  next hmapped =>
    have haddr : addr = toIpv6Mapped (addr.extractLsb' 0 32) := by
      have hlt := addr.isLt
      simp only [beq_iff_eq, ← BitVec.toNat_inj, BitVec.extractLsb'_toNat, toNat_toIpv6Mapped,
        Nat.shiftRight_eq_div_pow] at hmapped ⊢
      norm_num at hmapped hlt ⊢
      omega
    constructor
    · exact fun hp => ⟨_, haddr, hp⟩
    · rintro ⟨v4, hv4, hp⟩
      rwa [(hlow v4 hv4).2]
  next hmapped =>
    refine iff_of_false nofun ?_
    rintro ⟨v4, hv4, -⟩
    exact hmapped (beq_iff_eq.mpr (hlow v4 hv4).1)

/-- The addresses of a mapped network. -/
theorem contains_mapped_iff {net : Subnet 32} (hmem : net ∈ internalV4Nets) :
    (mappedNet net).contains addr = true ↔
      ∃ v4, addr = toIpv6Mapped v4 ∧ net.contains v4 = true := by
  have hends : ∀ net ∈ internalV4Nets,
      (mappedNet net).network = toIpv6Mapped net.network ∧
        (mappedNet net).broadcast = toIpv6Mapped net.broadcast := by decide
  simp only [Subnet.contains_iff, (hends net hmem).1, (hends net hmem).2, ← BitVec.toNat_inj,
    BitVec.le_def, toNat_toIpv6Mapped]
  constructor
  · rintro ⟨hlo, hhi⟩
    refine ⟨BitVec.ofNat 32 (addr.toNat - 0xFFFF00000000), ?_⟩
    rw [BitVec.toNat_ofNat, Nat.mod_eq_of_lt (by omega)]
    omega
  · rintro ⟨v4, hv4, hlo, hhi⟩
    omega

/-- The mapped addresses of some networks. -/
theorem exists_mapped_iff {nets : List (Subnet 32)} (hnets : nets ⊆ internalV4Nets)
    {p : BitVec 32 → Bool} (hp : ∀ v4, p v4 = true ↔ ∃ net ∈ nets, net.contains v4 = true) :
    (toIpv4Mapped addr).any p = true ↔ ∃ net ∈ nets.map mappedNet, net.contains addr = true := by
  simp only [toIpv4Mapped_any_iff, List.mem_map, exists_exists_and_eq_and]
  constructor
  · rintro ⟨v4, hv4, hp4⟩
    obtain ⟨net, hnet, hcontains⟩ := (hp v4).mp hp4
    exact ⟨net, hnet, (contains_mapped_iff (hnets hnet)).mpr ⟨v4, hv4, hcontains⟩⟩
  · rintro ⟨net, hnet, hcontains⟩
    obtain ⟨v4, hv4, hcontains⟩ := (contains_mapped_iff (hnets hnet)).mp hcontains
    exact ⟨v4, hv4, (hp v4).mpr ⟨net, hnet, hcontains⟩⟩

/-- The leading bits of the first segment. -/
theorem segment_iff (k : Nat) (value : BitVec 16) :
    addr.extractLsb' 112 16 &&& BitVec.allOnes 16 <<< k = value &&& BitVec.allOnes 16 <<< k ↔
      addr.toNat / 2 ^ (112 + k) = value.toNat / 2 ^ k := by
  have hlt := addr.isLt
  rw [Subnet.and_mask_eq_iff, BitVec.extractLsb'_toNat, Nat.shiftRight_eq_div_pow,
    Nat.mod_eq_of_lt (by omega), Nat.div_div_eq_div_mul, ← Nat.pow_add]

theorem linkLocalV6_iff : (addr.extractLsb' 112 16 &&& 0xFFC0#16 == 0xFE80#16) = true ↔
    (Subnet.newAssert 0xFE800000000000000000000000000000#128 10).contains addr = true := by
  rw [beq_iff_eq, Subnet.contains_iff_div]
  exact (segment_iff 6 0xFE80#16).trans (by norm_num [Subnet.newAssert])

theorem ulaV6_iff : (addr.extractLsb' 112 16 &&& 0xFE00#16 == 0xFC00#16) = true ↔
    ulaNet.contains addr = true := by
  rw [beq_iff_eq, Subnet.contains_iff_div]
  exact (segment_iff 9 0xFC00#16).trans (by norm_num [ulaNet, Subnet.newAssert])

theorem contains_single_iff {value : BitVec 128} :
    (Subnet.newAssert value 128).contains addr = true ↔ addr = value := by
  rw [Subnet.contains_iff_div, ← BitVec.toNat_inj]
  norm_num [Subnet.newAssert]

theorem hardMapped_iff : (toIpv4Mapped addr).any isLinkLocalV4 = true ∨
      (toIpv4Mapped addr).any (fun v4 => isLoopbackV4 v4 || v4 == 0#32) = true ↔
    ∃ net ∈ hardV4Nets.map mappedNet, net.contains addr = true := by
  rw [← exists_mapped_iff (List.subset_append_left ..) fun v4 => hardV4_iff]
  cases toIpv4Mapped addr with
  | none => simp
  | some v4 => simp [or_left_comm, or_assoc]

theorem isAlwaysBlockedIp_v6_iff :
    isAlwaysBlockedIp (.v6 addr) = true ↔ ∃ net ∈ hardV6Nets, net.contains addr = true := by
  simp only [hardV6Nets, List.mem_append, or_and_right, exists_or, ← hardMapped_iff,
    List.exists_mem_cons_iff,
    List.not_mem_nil, false_and, exists_false, or_false, contains_single_iff, ← linkLocalV6_iff]
  simp only [isAlwaysBlockedIp, isLinkLocalIp, Bool.if_true_left, Bool.or_eq_true,
    decide_eq_true_eq, beq_iff_eq]
  apply iff_of_eq
  ac_rfl

theorem isInternalIp_v6_iff : isInternalIp (.v6 addr) = true ↔
    ∃ net ∈ internalV6Nets, net.contains addr = true := by
  have hany : (toIpv4Mapped addr).any isInternalV4 = true ↔ _ :=
    exists_mapped_iff (List.Subset.refl internalV4Nets) fun v4 => isInternalV4_iff
  simp only [internalV4Nets, List.map_append, List.mem_append, or_and_right, exists_or,
    ← hardMapped_iff] at hany
  simp only [internalV6Nets, List.mem_append, or_and_right, exists_or, ← isAlwaysBlockedIp_v6_iff,
    List.mem_singleton, exists_eq_left, ← ulaV6_iff]
  simp only [isInternalIp, isAlwaysBlockedIp, isLinkLocalIp, Bool.if_true_left, Bool.or_eq_true,
    decide_eq_true_eq, hany]
  apply iff_of_eq
  ac_rfl

end V6

section Meets

variable {w : Nat} {net left right : Subnet w} {nets : List (Subnet w)}

/-- Two networks have an address in common. -/
def meets (left right : Subnet w) : Bool :=
  left.network ≤ right.broadcast && right.network ≤ left.broadcast

/-- Networks meet if one of them begins in the other. -/
theorem meets_iff_network : meets left right = true ↔
    right.contains left.network = true ∨ left.contains right.network = true := by
  have hleft := left.network_le_broadcast
  have hright := right.network_le_broadcast
  simp only [meets, Bool.and_eq_true, decide_eq_true_eq, Subnet.contains_iff, BitVec.le_def]
    at hleft hright ⊢
  omega

theorem meets_iff : meets left right = true ↔
    ∃ addr, left.contains addr = true ∧ right.contains addr = true := by
  constructor
  · intro h
    rcases meets_iff_network.mp h with h | h
    · exact ⟨_, left.contains_network, h⟩
    · exact ⟨_, h, right.contains_network⟩
  · rintro ⟨addr, hleft, hright⟩
    simp only [meets, Bool.and_eq_true, decide_eq_true_eq, Subnet.contains_iff, BitVec.le_def]
      at hleft hright ⊢
    omega

theorem exists_meets_iff : (∃ other ∈ nets, meets net other = true) ↔
    ∃ addr, net.contains addr = true ∧ ∃ other ∈ nets, other.contains addr = true := by
  simp only [meets_iff]
  constructor
  · rintro ⟨other, hmem, addr, haddr, hother⟩
    exact ⟨addr, haddr, other, hmem, hother⟩
  · rintro ⟨addr, haddr, other, hmem, hother⟩
    exact ⟨other, hmem, addr, haddr, hother⟩

end Meets

section Crate

variable {ipv4 : NetCrate 32} {ipv6 : NetCrate 128}

theorem netsIntersect_eq {w : Nat} {crate : NetCrate w} (left right : crate.Net) :
    netsIntersect crate left right = meets (crate.subnet left) (crate.subnet right) := by
  simp only [netsIntersect, meets, crate.network_eq, crate.broadcast_eq]

theorem subnet_mapped (net : ipv4.Net) :
    ipv6.subnet (ipv4NetToMappedIpv6 ipv4 ipv6 net) = mappedNet (ipv4.subnet net) := by
  have hle := (ipv4.subnet net).prefixLen_le
  rw [ipv4NetToMappedIpv6, ipv6.subnet_newAssert _ _ (by rw [ipv4.prefixLen_eq]; omega),
    ipv4.network_eq, ipv4.prefixLen_eq]
  rfl

theorem exists_nonHard_iff (p : Subnet 32 → Prop) :
    (∃ net ∈ nonHardInternalV4Nets ipv4, p (ipv4.subnet net)) ↔ ∃ net ∈ nonHardV4Nets, p net := by
  simp [nonHardInternalV4Nets, nonHardV4Nets, NetCrate.subnets, ipv4.subnet_newAssert]

theorem isAlwaysBlockedNet_v4_iff {net : ipv4.Net} :
    isAlwaysBlockedNet (.v4 net : CrateNet ipv4 ipv6) = true ↔
      ∃ other ∈ hardV4Nets, meets (ipv4.subnet net) other = true := by
  simp only [isAlwaysBlockedNet, ipv4.network_eq, ipv4.broadcast_eq]
  generalize ipv4.subnet net = net
  have hends : hardV4Nets.map (fun net => (net.network, net.broadcast)) =
      [(0x7F000000#32, 0x7FFFFFFF#32), (0xA9FE0000#32, 0xA9FEFFFF#32), (0#32, 0#32)] := by decide
  have hmeets : (∃ other ∈ hardV4Nets, meets net other = true) ↔
      ∃ ends ∈ hardV4Nets.map fun net => (net.network, net.broadcast), ends.1 ≤ net.broadcast ∧
      net.network ≤ ends.2 := by
    simp [meets, and_comm]
  have hzero : 0#32 ≤ net.broadcast ∧ net.network ≤ 0#32 ↔ net.network = 0#32 := by
    rw [← BitVec.toNat_inj, BitVec.le_def, BitVec.le_def]
    exact (and_iff_right (Nat.zero_le _)).trans Nat.le_zero
  rw [hmeets, hends]
  simp only [List.exists_mem_cons_iff, List.not_mem_nil, false_and, exists_false, or_false, hzero,
    Bool.or_eq_true, Bool.and_eq_true, decide_eq_true_eq, beq_iff_eq, or_assoc]

theorem isAlwaysBlockedNet_v6_iff {net : ipv6.Net} :
    isAlwaysBlockedNet (.v6 net : CrateNet ipv4 ipv6) = true ↔
      ∃ other ∈ hardV6Nets, meets (ipv6.subnet net) other = true := by
  simp only [isAlwaysBlockedNet, ipv6.network_eq, ipv6.contains_eq, Bool.or_eq_true]
  generalize ipv6.subnet net = net
  have hnetworks : hardV6Nets.map Subnet.network =
      [toIpv6Mapped 0x7F000000#32, toIpv6Mapped 0xA9FE0000#32,
      toIpv6Mapped 0#32, 0#128, 1#128, 0xFE800000000000000000000000000000#128] := by decide
  have hfirst : ∀ addr, net.network = addr ∨ net.contains addr = true ↔
      net.contains addr = true := fun addr =>
    or_iff_right_of_imp fun h => h ▸ net.contains_network
  -- a network with the even address 127.0.0.0 begins there, or has the next one too
  have hloopback : (mappedNet (.newAssert 0x7F000000#32 8)).contains net.network = true ∨
        net.contains (toIpv6Mapped 0x7F000001#32) = true ↔
      (mappedNet (.newAssert 0x7F000000#32 8)).contains net.network = true ∨
        net.contains (toIpv6Mapped 0x7F000000#32) = true := by
    have hends : (mappedNet (.newAssert 0x7F000000#32 8)).network = toIpv6Mapped 0x7F000000#32 ∧
      (mappedNet (.newAssert 0x7F000000#32 8)).broadcast = toIpv6Mapped 0x7FFFFFFF#32 := by decide
    have hodd := net.broadcast_odd
    simp only [Subnet.contains_iff, hends, BitVec.le_def, toNat_toIpv6Mapped,
      ← BitVec.toNat_inj] at hodd ⊢
    norm_num
    omega
  rw [exists_mapped_iff (List.subset_append_left ..) fun v4 => hardV4_iff]
  simp only [hardV6Nets, hardV4Nets, List.map_cons, List.map_nil, List.cons_append, List.nil_append,
    List.cons.injEq, and_true] at hnetworks ⊢
  simp only [List.exists_mem_cons_iff, List.not_mem_nil, false_and, exists_false, or_false,
    meets_iff_network, hnetworks, contains_single_iff, hfirst, ← linkLocalV6_iff, ← hloopback]
  apply iff_of_eq
  ac_rfl

/-- An address of a network is one of its own family. -/
theorem CrateNet.exists_contains_iff {p : IpAddr → Prop} :
    ∀ {net : CrateNet ipv4 ipv6}, (∃ ip, net.contains ip = true ∧ p ip) ↔
      match net with
      | .v4 net => ∃ addr, (ipv4.subnet net).contains addr = true ∧ p (.v4 addr)
      | .v6 net => ∃ addr, (ipv6.subnet net).contains addr = true ∧ p (.v6 addr)
  | .v4 net => by
    simp only [← ipv4.contains_eq]
    exact ⟨fun | ⟨.v4 addr, h⟩ => ⟨addr, h⟩, fun ⟨addr, h⟩ => ⟨.v4 addr, h⟩⟩
  | .v6 net => by
    simp only [← ipv6.contains_eq]
    exact ⟨fun | ⟨.v6 addr, h⟩ => ⟨addr, h⟩, fun ⟨addr, h⟩ => ⟨.v6 addr, h⟩⟩

/-- A network is refused exactly if one of its addresses is, and it is internal exactly if
one of its addresses is: no address is missed for being inside a range, and no range for
one that it only comes close to. -/
theorem net_classified (net : CrateNet ipv4 ipv6) :
    (isAlwaysBlockedNet net = true ↔ ∃ ip, net.contains ip = true ∧ isAlwaysBlockedIp ip = true) ∧
      (isInternalNet net = true ↔ ∃ ip, net.contains ip = true ∧ isInternalIp ip = true) := by
  rw [CrateNet.exists_contains_iff, CrateNet.exists_contains_iff]
  cases net with
  | v4 net =>
    simp only [isAlwaysBlockedIp_v4_iff, isInternalIp, isInternalV4_iff, ← exists_meets_iff,
      isInternalNet, Bool.or_eq_true, isAlwaysBlockedNet_v4_iff, netsIntersect_eq, List.any_eq_true,
      exists_nonHard_iff fun other => meets (ipv4.subnet net) other = true, true_and]
    simp only [internalV4Nets, List.mem_append, or_and_right, exists_or]
  | v6 net =>
    have hula : ipv6.subnet (ipv6UlaNet ipv6) = ulaNet := ipv6.subnet_newAssert _ _ (by decide)
    simp only [isAlwaysBlockedIp_v6_iff, isInternalIp_v6_iff, ← exists_meets_iff, isInternalNet,
      Bool.or_eq_true,
      isAlwaysBlockedNet_v6_iff, netsIntersect_eq, subnet_mapped, hula, List.any_eq_true,
      exists_nonHard_iff fun other => meets (ipv6.subnet net) (mappedNet other) = true, true_and]
    simp only [internalV6Nets, List.mem_append, or_and_right, exists_or, List.mem_map,
      exists_exists_and_eq_and, List.mem_singleton, exists_eq_left]
    exact or_congr_right or_comm

/-- `127.0.0.0/8`, with plain networks for the crate's. -/
def loopbackNet : CrateNet (.subnets 32) (.subnets 128) := .v4 (.newAssert 0x7F000000#32 8)

theorem net_classified_loopback :
    isAlwaysBlockedNet loopbackNet = true ∧ ∃ ip, loopbackNet.contains ip = true ∧
      isAlwaysBlockedIp ip = true := by
  have hblocked : isAlwaysBlockedNet loopbackNet = true := by decide
  exact ⟨hblocked, (net_classified loopbackNet).1.mp hblocked⟩

end Crate

end OpenShell.Core
