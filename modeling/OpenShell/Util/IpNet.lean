import Mathlib
import OpenShell.Util.IpAddr

/-!
# Networks of addresses

A network is an address with the number of leading bits that its addresses share. They
lie between the first and the last of them, and the last one has only ones behind the
prefix. The `ipnet` crate is a parameter: `NetCrate` names what its documentation says of
its networks, and `NetCrate.subnets` shows that there is such a crate.
-/

namespace OpenShell

/-- A network of `w`-bit addresses; the address may have bits past the prefix. -/
structure Subnet (w : Nat) where
  addr : BitVec w
  prefixLen : Nat
  prefixLen_le : prefixLen ≤ w
  deriving DecidableEq

namespace Subnet

variable {w : Nat}

def hostmask (net : Subnet w) : BitVec w := BitVec.allOnes w >>> net.prefixLen

def network (net : Subnet w) : BitVec w := net.addr &&& ~~~net.hostmask

def broadcast (net : Subnet w) : BitVec w := net.addr ||| net.hostmask

def contains (net : Subnet w) (addr : BitVec w) : Bool :=
  net.network ≤ addr && addr ≤ net.broadcast

/-- The network of an address and a prefix length that is not too long. -/
def newAssert (addr : BitVec w) (prefixLen : Nat) : Subnet w :=
  ⟨addr, min prefixLen w, Nat.min_le_right ..⟩

/-! ## A network as an interval -/

/-- Two addresses share their bits from `k` on exactly if they do so under a mask. -/
theorem and_mask_eq_iff {x y : BitVec w} {k : Nat} :
    x &&& BitVec.allOnes w <<< k = y &&& BitVec.allOnes w <<< k ↔
      x.toNat / 2 ^ k = y.toNat / 2 ^ k := by
  rw [← Nat.shiftRight_eq_div_pow, ← Nat.shiftRight_eq_div_pow, ← BitVec.toNat_ushiftRight,
    ← BitVec.toNat_ushiftRight, BitVec.toNat_inj]
  constructor
  · intro h
    ext i hi
    have hbit := congrArg (·.getLsbD (k + i)) h
    by_cases hki : k + i < w
    · simpa [BitVec.getLsbD_shiftLeft, hki, show k + i - k < w by omega] using hbit
    · simp [BitVec.getLsbD_of_ge _ _ (not_lt.mp hki)]
  · intro h
    ext i hi
    by_cases hik : i < k
    · simp [hik]
    · have hbit := congrArg (·.getLsbD (i - k)) h
      simp only [BitVec.getLsbD_ushiftRight, show k + (i - k) = i by omega,
        BitVec.getLsbD_eq_getElem hi] at hbit
      simp [hbit]

/-- The longer of two masks. -/
theorem mask_and_mask {a b : Nat} (h : b ≤ a) :
    BitVec.allOnes w <<< a &&& BitVec.allOnes w <<< b = BitVec.allOnes w <<< a := by
  ext i hi
  simp
  omega

section Interval

variable (net : Subnet w)

theorem testBit_hostmask (i : Nat) :
    net.hostmask.toNat.testBit i = decide (i < w - net.prefixLen) := by
  have hle := net.prefixLen_le
  rw [BitVec.testBit_toNat, hostmask, BitVec.getLsbD_ushiftRight, BitVec.getLsbD_allOnes]
  exact decide_eq_decide.mpr (by omega)

/-- The first address. -/
theorem toNat_network : net.network.toNat = net.addr.toNat / 2 ^ (w - net.prefixLen) * 2 ^
    (w - net.prefixLen) := by
  apply Nat.eq_of_testBit_eq
  intro i
  rw [network, Nat.testBit_mul_two_pow, Nat.testBit_div_two_pow, BitVec.testBit_toNat,
    BitVec.getLsbD_and,
    BitVec.getLsbD_not, ← BitVec.testBit_toNat (x := net.hostmask), testBit_hostmask,
    ← BitVec.testBit_toNat]
  by_cases hi : w - net.prefixLen ≤ i
  · rw [show i - (w - net.prefixLen) + (w - net.prefixLen) = i by omega]
    by_cases hw : i < w
    · simp [hi, hw, not_lt.mpr hi]
    · simp [BitVec.testBit_toNat, BitVec.getLsbD_of_ge _ _ (not_lt.mp hw)]
  · simp [hi, not_le.mp hi]

/-- The last address. -/
theorem toNat_broadcast :
    net.broadcast.toNat = net.network.toNat + (2 ^ (w - net.prefixLen) - 1) := by
  have hlt : 2 ^ (w - net.prefixLen) - 1 < 2 ^ (w - net.prefixLen) :=
    Nat.sub_lt (Nat.two_pow_pos _) Nat.one_pos
  rw [toNat_network, Nat.mul_comm, Nat.two_pow_add_eq_or_of_lt hlt]
  apply Nat.eq_of_testBit_eq
  intro i
  rw [broadcast, BitVec.toNat_or, Nat.testBit_or, Nat.testBit_or, testBit_hostmask,
    Nat.testBit_two_pow_sub_one, Nat.testBit_two_pow_mul, Nat.testBit_div_two_pow]
  by_cases hi : w - net.prefixLen ≤ i
  · simp [hi, show i - (w - net.prefixLen) + (w - net.prefixLen) = i by omega]
  · simp [hi, not_le.mp hi]

theorem network_le_broadcast : net.network ≤ net.broadcast := by
  rw [BitVec.le_def, toNat_broadcast]
  exact Nat.le_add_right _ _

/-- The last address is odd, unless it is the only one. -/
theorem broadcast_odd : net.network = net.broadcast ∨ net.broadcast.toNat % 2 = 1 := by
  rcases Nat.eq_zero_or_pos (w - net.prefixLen) with hzero | hpos
  · left
    rw [← BitVec.toNat_inj, toNat_broadcast, hzero]
    rfl
  · right
    obtain ⟨k, hk⟩ := Nat.exists_eq_add_of_lt hpos
    have hpow := Nat.two_pow_pos k
    rw [toNat_broadcast, toNat_network, hk, Nat.zero_add, Nat.pow_succ, ← Nat.mul_assoc]
    omega

variable {net} {addr : BitVec w}

theorem contains_iff : net.contains addr = true ↔ net.network ≤ addr ∧ addr ≤ net.broadcast := by
  rw [contains, Bool.and_eq_true, decide_eq_true_eq, decide_eq_true_eq]

/-- The addresses of a network share its prefix. -/
theorem contains_iff_div : net.contains addr = true ↔
    addr.toNat / 2 ^ (w - net.prefixLen) = net.addr.toNat / 2 ^ (w - net.prefixLen) := by
  have hpow := Nat.two_pow_pos (w - net.prefixLen)
  rw [contains_iff, BitVec.le_def, BitVec.le_def, toNat_broadcast, toNat_network,
    Nat.div_eq_iff hpow]
  omega

theorem contains_network (net : Subnet w) : net.contains net.network = true :=
  contains_iff.mpr ⟨BitVec.le_refl _, net.network_le_broadcast⟩

end Interval

end Subnet

/-- A network of either family. -/
inductive IpNet where
  | v4 (net : Subnet 32)
  | v6 (net : Subnet 128)
  deriving DecidableEq

def IpNet.contains : IpNet → IpAddr → Bool
  | .v4 net, .v4 bits => net.contains bits
  | .v6 net, .v6 bits => net.contains bits
  | _, _ => false

/-! ## The crate -/

/-- `Ipv4Net` and `Ipv6Net` of the `ipnet` crate: a value stands for the network of its address
and prefix length, and its ends and its addresses are those of that network. -/
structure NetCrate (w : Nat) where
  Net : Type
  subnet : Net → Subnet w
  newAssert : BitVec w → Nat → Net
  prefixLen : Net → Nat
  network : Net → BitVec w
  broadcast : Net → BitVec w
  contains : Net → BitVec w → Bool
  subnet_newAssert : ∀ addr len, len ≤ w → subnet (newAssert addr len) = .newAssert addr len
  prefixLen_eq : ∀ net, prefixLen net = (subnet net).prefixLen
  network_eq : ∀ net, network net = (subnet net).network
  broadcast_eq : ∀ net, broadcast net = (subnet net).broadcast
  contains_eq : ∀ net addr, contains net addr = (subnet net).contains addr

/-- The networks themselves. -/
def NetCrate.subnets (w : Nat) : NetCrate w where
  Net := Subnet w
  subnet := id
  newAssert := .newAssert
  prefixLen := Subnet.prefixLen
  network := Subnet.network
  broadcast := Subnet.broadcast
  contains := Subnet.contains
  subnet_newAssert _ _ _ := rfl
  prefixLen_eq _ := rfl
  network_eq _ := rfl
  broadcast_eq _ := rfl
  contains_eq _ _ := rfl

/-- `ipnet::IpNet`. -/
inductive CrateNet (ipv4 : NetCrate 32) (ipv6 : NetCrate 128) where
  | v4 (net : ipv4.Net)
  | v6 (net : ipv6.Net)

def CrateNet.contains {ipv4 : NetCrate 32} {ipv6 : NetCrate 128} :
    CrateNet ipv4 ipv6 → IpAddr → Bool
  | .v4 net, .v4 bits => ipv4.contains net bits
  | .v6 net, .v6 bits => ipv6.contains net bits
  | _, _ => false

end OpenShell
