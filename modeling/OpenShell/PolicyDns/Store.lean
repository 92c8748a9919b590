import Mathlib
import Std.Data.ExtTreeMap
import Std.Data.ExtTreeSet
import OpenShell.Core.Net
import OpenShell.Util.Run

/-!
# Resolved endpoint store

`ResolvedEndpointStore` of the policy DNS resolver: synthetic addresses are
allocated to names from two pools, and a connection to such an address is looked
up in the records published for it. The lock makes every call atomic; a panic
under the write lock poisons it.
-/

namespace OpenShell.PolicyDns

inductive AddressFamily
  | ipv4
  | ipv6
  deriving DecidableEq

def AddressFamily.accepts : AddressFamily → IpAddr → Bool
  | .ipv4, .v4 _ => true
  | .ipv6, .v6 _ => true
  | _, _ => false

/-- The number of bits of an address. -/
def AddressFamily.width : AddressFamily → Nat
  | .ipv4 => 32
  | .ipv6 => 128

structure NormalizedName where
  text : String
  deriving DecidableEq

structure PolicyEndpointId where
  policyName : String
  endpointIndex : Nat
  deriving DecidableEq

structure ResolvedPortContract where
  endpointId : PolicyEndpointId
  port : UInt16
  pinnedAddresses : List IpAddr
  deriving DecidableEq

/-- `std::time::Instant` in nanoseconds. -/
structure Instant where
  nanos : Int
  deriving DecidableEq

/-- The last instant: `i64::MAX` seconds and the nanoseconds of one more. -/
def Instant.max : Int := (2 ^ 63 - 1) * 10 ^ 9 + 999999999

/-- A duration in nanoseconds. -/
abbrev Duration := Nat

/-- `Instant::checked_add`; the operator `+` panics where this is `none`. -/
def Instant.checkedAdd (now : Instant) (ttl : Duration) : Option Instant :=
  if now.nanos + ttl ≤ Instant.max then some ⟨now.nanos + ttl⟩ else none

def maxMappingTtl : Duration := 30 * 10 ^ 9

structure PublishRequest where
  normalizedName : NormalizedName
  family : AddressFamily
  allocationIdentity : BitVec 256
  policyGeneration : UInt64
  ttl : Duration
  contracts : List ResolvedPortContract

structure ResolvedEndpointRecord where
  syntheticAddress : IpAddr
  normalizedName : NormalizedName
  family : AddressFamily
  policyGeneration : UInt64
  mappingGeneration : Nat
  mappingId : BitVec 128
  createdAt : Instant
  expiresAt : Instant
  contracts : List ResolvedPortContract
  deriving DecidableEq

def ResolvedEndpointRecord.isObservation (record : ResolvedEndpointRecord) : Bool :=
  record.contracts.isEmpty

/-! ## Configuration -/

inductive StoreConfigError
  | invalidPool
  | zeroCapacity
  deriving DecidableEq

/-- The pools `new` accepts. -/
structure SyntheticPools where
  ipv4Start : BitVec 32
  ipv4End : BitVec 32
  ipv6Start : BitVec 128
  ipv6End : BitVec 128
  ipv4_nonempty : ipv4Start ≤ ipv4End
  ipv6_nonempty : ipv6Start ≤ ipv6End
  ipv4_allowed : Core.isAlwaysBlockedIp (.v4 ipv4Start) = false ∧
    Core.isAlwaysBlockedIp (.v4 ipv4End) = false
  ipv6_allowed : Core.isAlwaysBlockedIp (.v6 ipv6Start) = false ∧
    Core.isAlwaysBlockedIp (.v6 ipv6End) = false

namespace SyntheticPools

def new (ipv4Start ipv4End : BitVec 32) (ipv6Start ipv6End : BitVec 128) :
    Except StoreConfigError SyntheticPools :=
  if hempty : ipv4Start ≤ ipv4End ∧ ipv6Start ≤ ipv6End then
    if h4 : Core.isAlwaysBlockedIp (.v4 ipv4Start) = false ∧
      Core.isAlwaysBlockedIp (.v4 ipv4End) = false then
      if h6 : Core.isAlwaysBlockedIp (.v6 ipv6Start) = false ∧
        Core.isAlwaysBlockedIp (.v6 ipv6End) = false then
        .ok ⟨ipv4Start, ipv4End, ipv6Start, ipv6End, hempty.1, hempty.2, h4, h6⟩
      else .error .invalidPool
    else .error .invalidPool
  else .error .invalidPool

/-- The first address of a pool, as a number. -/
def first (pools : SyntheticPools) : AddressFamily → Nat
  | .ipv4 => pools.ipv4Start.toNat
  | .ipv6 => pools.ipv6Start.toNat

/-- The last address of a pool, as a number. -/
def last (pools : SyntheticPools) : AddressFamily → Nat
  | .ipv4 => pools.ipv4End.toNat
  | .ipv6 => pools.ipv6End.toNat

/-- The number of addresses of a pool, at most `usize::MAX`. -/
def capacity (pools : SyntheticPools) (family : AddressFamily) : Nat :=
  min (pools.last family - pools.first family + 1) (2 ^ 64 - 1)

end SyntheticPools

structure StoreConfig where
  pools : SyntheticPools
  maxMappings : Nat
  nonzero : maxMappings ≠ 0

/-! ## State -/

inductive PublishError
  | stalePolicy
  | invalidMapping
  | poolExhausted
  | observationBudgetExhausted
  | lockPoisoned
  deriving DecidableEq

inductive MappingLookupError
  | missing
  | expired
  | stalePolicy
  | portMismatch
  | endpointMismatch
  | invalidMapping
  | lockPoisoned
  deriving DecidableEq

inductive AllocationIdentity
  | observation
  | contracts (digest : BitVec 256)
  deriving DecidableEq

structure AllocationKey where
  normalizedName : NormalizedName
  family : AddressFamily
  identity : AllocationIdentity
  deriving DecidableEq

structure Publication where
  key : AllocationKey
  policyGeneration : UInt64
  ttl : Duration
  contracts : List ResolvedPortContract

section Orders

/-- The derived order of `AllocationIdentity`, as a number. -/
def AllocationIdentity.rank : AllocationIdentity → Nat
  | .observation => 0
  | .contracts digest => digest.toNat + 1

theorem AllocationIdentity.rank_injective {i j : AllocationIdentity}
    (h : i.rank = j.rank) : i = j := by
  cases i <;> cases j <;> simp_all [AllocationIdentity.rank, BitVec.toNat_inj]

theorem AddressFamily.width_injective {f g : AddressFamily} (h : f.width = g.width) : f = g := by
  cases f <;> cases g <;> first | rfl | cases h

/-- The derived order of `IpAddr`, as a number. -/
def ipRank : IpAddr → Nat
  | .v4 bits => bits.toNat
  | .v6 bits => 2 ^ 32 + bits.toNat

theorem ipRank_injective {a b : IpAddr} (h : ipRank a = ipRank b) : a = b := by
  cases a with
  | v4 x =>
    cases b with
    | v4 y => exact congrArg _ (BitVec.toNat_inj.mp h)
    | v6 y => exact absurd h (Nat.ne_of_lt (Nat.lt_of_lt_of_le x.isLt (Nat.le_add_right _ _)))
  | v6 x =>
    cases b with
    | v4 y => exact absurd h.symm (Nat.ne_of_lt (Nat.lt_of_lt_of_le y.isLt (Nat.le_add_right _ _)))
    | v6 y => exact congrArg _ (BitVec.toNat_inj.mp (Nat.add_left_cancel h))

instance : Ord IpAddr := ⟨compareOn ipRank⟩

instance : Std.TransOrd IpAddr := inferInstanceAs (Std.TransCmp (compareOn ipRank))

instance : Std.LawfulEqOrd IpAddr where
  eq_of_compare h := ipRank_injective (Std.LawfulEqOrd.eq_of_compare (α := Nat) h)

/-- The derived order of `AllocationKey`: name, family, identity. -/
def compareKeys : AllocationKey → AllocationKey → Ordering :=
  compareLex (compareOn (·.normalizedName.text))
    (compareLex (compareOn (·.family.width)) (compareOn (·.identity.rank)))

instance : Ord AllocationKey := ⟨compareKeys⟩

instance : Std.TransOrd AllocationKey :=
  inferInstanceAs
    (Std.TransCmp (compareLex (compareOn fun key : AllocationKey => key.normalizedName.text)
    (compareLex (compareOn fun key : AllocationKey => key.family.width)
      (compareOn fun key : AllocationKey => key.identity.rank))))

instance : Std.LawfulEqOrd AllocationKey where
  eq_of_compare {a b} h := by
    have h : compareKeys a b = .eq := h
    simp only [compareKeys, compareLex_eq_eq, compareOn] at h
    obtain ⟨hname, hfamily, hidentity⟩ := h
    obtain ⟨⟨name⟩, family, identity⟩ := a
    obtain ⟨⟨name'⟩, family', identity'⟩ := b
    obtain rfl : name = name' := Std.LawfulEqOrd.eq_of_compare hname
    obtain rfl := AddressFamily.width_injective (Std.LawfulEqOrd.eq_of_compare (α := Nat) hfamily)
    obtain rfl :=
      AllocationIdentity.rank_injective (Std.LawfulEqOrd.eq_of_compare (α := Nat) hidentity)
    rfl

end Orders

structure StoreState where
  records : Std.ExtTreeMap IpAddr ResolvedEndpointRecord
  allocations : Std.ExtTreeMap AllocationKey IpAddr
  expiredAllocations : Std.ExtTreeSet IpAddr
  nextIpv4 : BitVec 32
  endIpv4 : BitVec 32
  nextIpv6 : BitVec 128
  endIpv6 : BitVec 128
  nextMappingGeneration : Nat

structure ResolvedEndpointStore where
  state : StoreState
  /-- The lock was poisoned by a panic of its holder. -/
  poisoned : Bool
  config : StoreConfig

def ResolvedEndpointStore.new (config : StoreConfig) : ResolvedEndpointStore where
  state := {
    records := ∅
    allocations := ∅
    expiredAllocations := ∅
    nextIpv4 := config.pools.ipv4Start
    endIpv4 := config.pools.ipv4End
    nextIpv6 := config.pools.ipv6Start
    endIpv6 := config.pools.ipv6End
    nextMappingGeneration := 0 }
  poisoned := false
  config := config

/-! ## Operations -/

/-- `saturating_add(1)`. -/
def saturatingSucc {w : Nat} (x : BitVec w) : BitVec w := if x = BitVec.allOnes w then x else x + 1

def allocateAddress (state : StoreState) : AddressFamily → Option (IpAddr × StoreState)
  | .ipv4 =>
    if state.nextIpv4 ≤ state.endIpv4 then
      some (.v4 state.nextIpv4, { state with nextIpv4 := saturatingSucc state.nextIpv4 })
    else none
  | .ipv6 =>
    if state.nextIpv6 ≤ state.endIpv6 then
      some (.v6 state.nextIpv6, { state with nextIpv6 := saturatingSucc state.nextIpv6 })
    else none

def observationPoolDivisor : Nat := 4

def StoreConfig.observationBudget (config : StoreConfig) (family : AddressFamily) : Nat :=
  max (min (config.pools.capacity family) config.maxMappings / observationPoolDivisor) 1

/-- What a call returns, where it may also panic. -/
inductive Outcome (ε α : Type)
  | ok (value : α)
  | error (e : ε)
  | panicked
  deriving DecidableEq

/-- The record `publish_checked` installs. -/
def Publication.record (publication : Publication) (address : IpAddr) (mappingGeneration : Nat)
    (mappingId : BitVec 128) (now expiresAt : Instant) : ResolvedEndpointRecord where
  syntheticAddress := address
  normalizedName := publication.key.normalizedName
  family := publication.key.family
  policyGeneration := publication.policyGeneration
  mappingGeneration := mappingGeneration
  mappingId := mappingId
  createdAt := now
  expiresAt := expiresAt
  contracts := publication.contracts

namespace ResolvedEndpointStore

/-- The first half of `publish_checked`: the address allocated to a key, now or before. -/
def syntheticAddress (config : StoreConfig) (state : StoreState) (key : AllocationKey) :
    Except PublishError (IpAddr × StoreState) :=
  match state.allocations[key]? with
  | some address => .ok (address, state)
  | none =>
    if key.identity = .observation ∧ config.observationBudget key.family ≤
        (state.allocations.keys.filter fun allocated =>
          decide (allocated.identity = .observation ∧ allocated.family = key.family)).length then
      .error .observationBudgetExhausted
    else if config.maxMappings ≤ state.allocations.size then .error .poolExhausted
    else match allocateAddress state key.family with
      | none => .error .poolExhausted
      | some (address, state) =>
        .ok (address, { state with allocations := state.allocations.insert key address })

def publishChecked (store : ResolvedEndpointStore) (publication : Publication) (now : Instant)
    (mappingId : BitVec 128) :
    ResolvedEndpointStore × Outcome PublishError ResolvedEndpointRecord :=
  if store.poisoned then (store, .error .lockPoisoned)
  else match syntheticAddress store.config store.state publication.key with
    | .error e => (store, .error e)
    | .ok (address, state) =>
      if state.records[address]?.any fun record =>
        publication.policyGeneration < record.policyGeneration then
        ({ store with state }, .error .stalePolicy)
      else
        let state :=
          { state with nextMappingGeneration := min (state.nextMappingGeneration + 1) (2 ^ 64 - 1) }
        match now.checkedAdd publication.ttl with
        | none => ({ store with state, poisoned := true }, .panicked)
        | some expiresAt =>
          let record :=
            publication.record address state.nextMappingGeneration mappingId now expiresAt
          ({ store with state := { state with
              expiredAllocations := state.expiredAllocations.erase address
              records := state.records.insert address record } }, .ok record)

/-- The checks of `publish` and the publication they let through. -/
def checkRequest (request : PublishRequest) (currentPolicyGeneration : UInt64) :
    Except PublishError Publication :=
  if request.policyGeneration ≠ currentPolicyGeneration then .error .stalePolicy
  else if request.ttl = 0 ∨ request.contracts.isEmpty ∨ (request.contracts.any fun contract =>
      contract.port == 0 || contract.pinnedAddresses.isEmpty ||
        contract.pinnedAddresses.any fun address => !request.family.accepts address) then
    .error .invalidMapping
  else .ok {
    key := {
      normalizedName := request.normalizedName
      family := request.family
      identity := .contracts request.allocationIdentity }
    policyGeneration := request.policyGeneration
    ttl := request.ttl
    contracts := request.contracts }

def publish (store : ResolvedEndpointStore) (request : PublishRequest)
    (currentPolicyGeneration : UInt64) (now : Instant) (mappingId : BitVec 128) :
    ResolvedEndpointStore × Outcome PublishError ResolvedEndpointRecord :=
  match checkRequest request currentPolicyGeneration with
  | .error e => (store, .error e)
  | .ok publication => store.publishChecked publication now mappingId

def publishObservation (store : ResolvedEndpointStore) (normalizedName : NormalizedName)
    (family : AddressFamily) (policyGeneration currentPolicyGeneration : UInt64) (now : Instant)
    (mappingId : BitVec 128) :
    ResolvedEndpointStore × Outcome PublishError ResolvedEndpointRecord :=
  if policyGeneration ≠ currentPolicyGeneration then (store, .error .stalePolicy)
  else
    store.publishChecked
      { key := { normalizedName, family, identity := .observation }
        policyGeneration
        ttl := maxMappingTtl
        contracts := [] } now mappingId

def expire (store : ResolvedEndpointStore) (now : Instant) :
    ResolvedEndpointStore × Outcome MappingLookupError Nat :=
  if store.poisoned then (store, .error .lockPoisoned)
  else
    let expired := store.state.records.toList.filterMap fun entry =>
      if entry.2.expiresAt.nanos ≤ now.nanos then some entry.1 else none
    let state := expired.foldl (fun state address => { state with
      records := state.records.erase address
      expiredAllocations := state.expiredAllocations.insert address }) store.state
    ({ store with state }, .ok expired.length)

end ResolvedEndpointStore

/-! ## Lookups -/

structure MappingLookup where
  record : ResolvedEndpointRecord
  port : UInt16
  deriving DecidableEq

def liveRecord (state : StoreState) (syntheticAddress : IpAddr) (currentPolicyGeneration : UInt64)
    (now : Instant) : Except MappingLookupError ResolvedEndpointRecord :=
  match state.records[syntheticAddress]? with
  | none => if syntheticAddress ∈ state.expiredAllocations then .error .expired else .error .missing
  | some record =>
    if record.expiresAt.nanos ≤ now.nanos then .error .expired
    else if record.policyGeneration ≠ currentPolicyGeneration then .error .stalePolicy
    else .ok record

namespace ResolvedEndpointStore

def lookup (store : ResolvedEndpointStore) (syntheticAddress : IpAddr) (port : UInt16)
    (currentPolicyGeneration : UInt64) (now : Instant) :
    Except MappingLookupError MappingLookup := do
  if store.poisoned then throw .lockPoisoned
  let record ← liveRecord store.state syntheticAddress currentPolicyGeneration now
  if !record.contracts.any fun contract => contract.port == port then throw .portMismatch
  return ⟨record, port⟩

end ResolvedEndpointStore

end OpenShell.PolicyDns
