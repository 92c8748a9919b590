import OpenShell.PolicyDns.Store
import OpenShell.Util.Result

/-!
# Runs of the resolved endpoint store

An address is handed out once: the cursors of the pools only move forward, so no
two allocation keys share an address, unless a cursor stands at the last address
of its whole address space, where adding one saturates. The other invariants of
the store follow from what one call does to the state.
-/

namespace OpenShell.PolicyDns

open ResolvedEndpointStore (checkRequest expire publish publishChecked publishObservation
  syntheticAddress)

/-! ## One family at a time -/

/-- The number of an address within its family. -/
def ipNumber : IpAddr → Nat
  | .v4 bits => bits.toNat
  | .v6 bits => bits.toNat

theorem ip_ext {family : AddressFamily} {a b : IpAddr} (ha : family.accepts a = true)
    (hb : family.accepts b = true) (h : ipNumber a = ipNumber b) : a = b := by
  cases family <;> cases a <;> cases b <;> first | cases ha; done | cases hb; done | skip
  all_goals exact congrArg _ (BitVec.toNat_inj.mp h)

theorem family_eq_of_accepts {f g : AddressFamily} {a : IpAddr} (hf : f.accepts a = true)
    (hg : g.accepts a = true) : f = g := by
  cases f <;> cases g <;> cases a <;> first | rfl | cases hf; done | cases hg

theorem toNat_saturatingSucc {w : Nat} (x : BitVec w) :
    (saturatingSucc x).toNat = min (x.toNat + 1) (2 ^ w - 1) := by
  have hlt := x.isLt
  unfold saturatingSucc
  by_cases h : x = BitVec.allOnes w
  · rw [if_pos h, h, BitVec.toNat_allOnes]
    omega
  · have hne : x.toNat ≠ 2 ^ w - 1 :=
      fun heq => h (BitVec.toNat_inj.mp (heq.trans BitVec.toNat_allOnes.symm))
    have hone : (1 : BitVec w).toNat = 1 := by
      change (BitVec.ofNat w 1).toNat = 1
      rw [BitVec.toNat_ofNat, Nat.mod_eq_of_lt (by omega)]
    rw [if_neg h, BitVec.toNat_add, hone, Nat.mod_eq_of_lt (by omega)]
    omega

namespace StoreState

/-- The cursor of a pool. -/
def next (state : StoreState) : AddressFamily → Nat
  | .ipv4 => state.nextIpv4.toNat
  | .ipv6 => state.nextIpv6.toNat

def last (state : StoreState) : AddressFamily → Nat
  | .ipv4 => state.endIpv4.toNat
  | .ipv6 => state.endIpv6.toNat

/-- The address at the cursor. -/
def cursor (state : StoreState) : AddressFamily → IpAddr
  | .ipv4 => .v4 state.nextIpv4
  | .ipv6 => .v6 state.nextIpv6

def advance (state : StoreState) : AddressFamily → StoreState
  | .ipv4 => { state with nextIpv4 := saturatingSucc state.nextIpv4 }
  | .ipv6 => { state with nextIpv6 := saturatingSucc state.nextIpv6 }

variable (state : StoreState) (family : AddressFamily)

theorem accepts_cursor : family.accepts (state.cursor family) = true := by cases family <;> rfl

theorem ipNumber_cursor : ipNumber (state.cursor family) = state.next family :=
  by cases family <;> rfl

@[simp] theorem advance_records : (state.advance family).records = state.records :=
  by cases family <;> rfl

@[simp] theorem advance_allocations : (state.advance family).allocations = state.allocations := by
  cases family <;> rfl

@[simp] theorem advance_nextMappingGeneration :
    (state.advance family).nextMappingGeneration = state.nextMappingGeneration := by
  cases family <;> rfl

@[simp] theorem advance_last : (state.advance family).last = state.last := by
  funext f
  cases family <;> cases f <;> rfl

theorem advance_next :
    (state.advance family).next family = min (state.next family + 1) (2 ^ family.width - 1) := by
  cases family <;> exact toNat_saturatingSucc _

theorem advance_next_of_ne {f : AddressFamily} (h : f ≠ family) :
    (state.advance family).next f = state.next f := by
  cases family <;> cases f <;> first | rfl | exact absurd rfl h

end StoreState

variable (family : AddressFamily)

theorem allocateAddress_eq (state : StoreState) :
    allocateAddress state family =
      if state.next family ≤ state.last family then some (state.cursor family, state.advance family)
        else none := by
  cases family <;> rfl

theorem SyntheticPools.first_le_last (pools : SyntheticPools) :
    pools.first family ≤ pools.last family := by
  cases family
  · exact pools.ipv4_nonempty
  · exact pools.ipv6_nonempty

theorem SyntheticPools.last_lt (pools : SyntheticPools) :
    pools.last family < 2 ^ family.width := by
  cases family
  · exact pools.ipv4End.isLt
  · exact pools.ipv6End.isLt

/-! ## Allocation -/

variable {config : StoreConfig} {state state' : StoreState} {address : IpAddr}

/-- The first half of a publication finds an address or takes the one at the cursor. -/
theorem syntheticAddress_eq_ok {key : AllocationKey}
    (h : syntheticAddress config state key = .ok (address, state')) :
    (state.allocations[key]? = some address ∧ state' = state) ∨
      (state.allocations[key]? = none ∧ state.allocations.size < config.maxMappings ∧
        state.next key.family ≤ state.last key.family ∧ address = state.cursor key.family ∧
        state' = { state.advance key.family
          with allocations := state.allocations.insert key address }) := by
  unfold syntheticAddress at h
  cases hfound : state.allocations[key]? with
  | some found =>
    rw [hfound] at h
    cases h
    exact .inl ⟨rfl, rfl⟩
  | none =>
    rw [hfound] at h
    dsimp only at h
    rw [allocateAddress_eq] at h
    obtain ⟨-, h⟩ := else_of_ite h nofun
    obtain ⟨hsize, h⟩ := else_of_ite h nofun
    by_cases hnext : state.next key.family ≤ state.last key.family
    · rw [if_pos hnext] at h
      cases h
      exact .inr ⟨rfl, Nat.lt_of_not_le hsize, hnext, rfl, by rw [StoreState.advance_allocations]⟩
    · rw [if_neg hnext] at h
      cases h

/-- The number of addresses of a pool. -/
def SyntheticPools.size (pools : SyntheticPools) (family : AddressFamily) : Nat :=
  pools.last family - pools.first family + 1

/-- What holds of the allocations after some number of calls. -/
structure Allocated (config : StoreConfig) (calls : Nat) (state : StoreState) : Prop where
  last_eq : state.last = config.pools.last
  size_le : state.allocations.size ≤ calls
  first_le : ∀ family, config.pools.first family ≤ state.next family
  next_le : ∀ family, state.next family ≤ config.pools.first family + state.allocations.size
  inPool : ∀ (key : AllocationKey) (address : IpAddr), state.allocations[key]? = some address →
    key.family.accepts address = true ∧ config.pools.first key.family ≤ ipNumber address ∧
    ipNumber address ≤ config.pools.last key.family
  /-- The cursor has passed every address, or stands still at the last one of the address
  space; then the whole pool is allocated. -/
  passed : ∀ (key : AllocationKey) (address : IpAddr), state.allocations[key]? = some address →
    ipNumber address < state.next key.family ∨
    (config.pools.last key.family = 2 ^ key.family.width - 1 ∧
      config.pools.size key.family ≤ state.allocations.size)
  injective : ∀ (key key' : AllocationKey) (address : IpAddr),
    state.allocations[key]? = some address → state.allocations[key']? = some address → key = key'

/-- No pool that ends with its address space is asked for more addresses than it has. -/
def NoSaturation (config : StoreConfig) (calls : Nat) : Prop :=
  ∀ family, config.pools.last family = 2 ^ family.width - 1 →
    min calls config.maxMappings ≤ config.pools.size family

section Allocation
variable {config : StoreConfig} {calls bound : Nat} {state state' : StoreState}
  {key : AllocationKey} {address : IpAddr}

theorem getElem?_insert_allocation (key' : AllocationKey) :
    (state.allocations.insert key address)[key']? = if key = key' then some address else
      state.allocations[key']? := by
  rw [Std.ExtTreeMap.getElem?_insert]
  by_cases h : key = key'
  · rw [if_pos h, if_pos (by rw [h]; exact Std.ReflCmp.compare_self)]
  · rw [if_neg h, if_neg (fun hc => h (Std.LawfulEqCmp.eq_of_compare hc))]

theorem size_insert_allocation (address : IpAddr) (hkey : state.allocations[key]? = none) :
    (state.allocations.insert key address).size = state.allocations.size + 1 := by
  have hmem : key ∉ state.allocations := by
    rw [Std.ExtTreeMap.mem_iff_isSome_getElem?, hkey]
    simp
  rw [Std.ExtTreeMap.size_insert, if_neg fun hc => hmem (Std.ExtTreeMap.mem_iff_contains.mpr hc)]

variable (h : Allocated config calls state)
include h

theorem Allocated.mono : Allocated config (calls + 1) state :=
  { h with size_le := Nat.le_succ_of_le h.size_le }

variable (hcalls : calls < bound) (hbound : NoSaturation config bound)
  (hsize : state.allocations.size < config.maxMappings)
include hcalls hbound hsize

/-- The address at the cursor is not allocated. -/
theorem Allocated.ne_cursor {key' : AllocationKey}
    (hkey' : state.allocations[key']? = some (state.cursor key.family)) : False := by
  have hfamily : key'.family = key.family :=
    family_eq_of_accepts (h.inPool _ _ hkey').1 (state.accepts_cursor key.family)
  rcases h.passed _ _ hkey' with hlt | ⟨hlast, hfull⟩
  · rw [state.ipNumber_cursor, hfamily] at hlt
    exact Nat.lt_irrefl _ hlt
  · have hmin := hbound _ hlast
    have hcount := h.size_le
    omega

theorem Allocated.allocate (hkey : state.allocations[key]? = none)
    (hnext : state.next key.family ≤ state.last key.family) :
    Allocated config (calls + 1)
      { state.advance key.family with
        allocations := state.allocations.insert key (state.cursor key.family) } := by
  have hlast : state.last key.family = config.pools.last key.family := congrFun h.last_eq _
  have hwidth := config.pools.last_lt key.family
  have hadvance := state.advance_next key.family
  have hfirst := h.first_le key.family
  have hreach := h.next_le key.family
  have hpool := config.pools.first_le_last key.family
  have hgrow := size_insert_allocation (state.cursor key.family) hkey
  have hother : ∀ {f}, f ≠ key.family →
      (state.advance key.family).next f = state.next f := fun hf =>
    state.advance_next_of_ne key.family hf
  refine {
    last_eq := (state.advance_last key.family).trans h.last_eq
    size_le := by have := h.size_le; exact hgrow ▸ Nat.succ_le_succ this
    first_le := fun family => ?_
    next_le := fun family => ?_
    inPool := fun key' address hkey' => ?_
    passed := fun key' address hkey' => ?_
    injective := fun key₁ key₂ address h₁ h₂ => ?_ }
  · change _ ≤ (state.advance key.family).next family
    by_cases hf : family = key.family
    · rw [hf, hadvance]
      omega
    · rw [hother hf]
      exact h.first_le family
  · change (state.advance key.family).next family ≤ _ + (state.allocations.insert key _).size
    rw [hgrow]
    by_cases hf : family = key.family
    · rw [hf, hadvance]
      omega
    · rw [hother hf]
      exact Nat.le_succ_of_le (h.next_le family)
  · rw [getElem?_insert_allocation] at hkey'
    split at hkey'
    next heq =>
      cases hkey'
      rw [← heq, state.ipNumber_cursor]
      exact ⟨state.accepts_cursor key.family, hfirst, hlast ▸ hnext⟩
    next => exact h.inPool key' address hkey'
  · rw [getElem?_insert_allocation] at hkey'
    change _ < (state.advance key.family).next key'.family ∨
      _ ∧ _ ≤ (state.allocations.insert key _).size
    rw [hgrow]
    split at hkey'
    next heq =>
      cases hkey'
      rw [← heq, state.ipNumber_cursor, hadvance]
      unfold SyntheticPools.size
      omega
    next =>
      have := h.passed key' address hkey'
      by_cases hf : key'.family = key.family
      · rw [hf] at this
        rw [hf, hadvance]
        omega
      · rw [hother hf]
        omega
  · rw [getElem?_insert_allocation] at h₁ h₂
    split at h₁
    next heq₁ =>
      split at h₂
      next heq₂ => exact heq₁.symm.trans heq₂
      next =>
        cases h₁
        exact (h.ne_cursor hcalls hbound hsize h₂).elim
    next =>
      split at h₂
      next =>
        cases h₂
        exact (h.ne_cursor hcalls hbound hsize h₁).elim
      next => exact h.injective _ _ _ h₁ h₂

end Allocation

/-! ## One call -/

inductive Call
  | publish (request : PublishRequest) (currentPolicyGeneration : UInt64) (now : Instant)
      (mappingId : BitVec 128)
  | publishObservation (normalizedName : NormalizedName) (family : AddressFamily)
      (policyGeneration currentPolicyGeneration : UInt64) (now : Instant) (mappingId : BitVec 128)
  | expire (now : Instant)

inductive Reply
  | published (outcome : Outcome PublishError ResolvedEndpointRecord)
  | swept (outcome : Outcome MappingLookupError Nat)

def Reply.isError : Reply → Bool
  | .published (.error _) => true
  | .swept (.error _) => true
  | _ => false

/-- The allocation key a call publishes under. -/
def Call.key : Call → Option AllocationKey
  | .publish request _ _ _ =>
    some ⟨request.normalizedName, request.family, .contracts request.allocationIdentity⟩
  | .publishObservation normalizedName family _ _ _ _ => some ⟨normalizedName, family, .observation⟩
  | .expire _ => none

def step (store : ResolvedEndpointStore) : Call → ResolvedEndpointStore × Reply
  | .publish request current now mappingId =>
    let result := store.publish request current now mappingId
    (result.1, .published result.2)
  | .publishObservation name family generation current now mappingId =>
    let result := store.publishObservation name family generation current now mappingId
    (result.1, .published result.2)
  | .expire now =>
    let result := store.expire now
    (result.1, .swept result.2)

namespace StoreState

/-- The next mapping generation. -/
def tick (state : StoreState) : StoreState :=
  { state with nextMappingGeneration := min (state.nextMappingGeneration + 1) (2 ^ 64 - 1) }

def install (state : StoreState) (address : IpAddr) (record : ResolvedEndpointRecord) :
    StoreState :=
  { state with
    expiredAllocations := state.expiredAllocations.erase address
    records := state.records.insert address record }

end StoreState

/-- What `publish_checked` can do with the address of its key. -/
inductive Published (store : ResolvedEndpointStore) (publication : Publication) (address : IpAddr)
    (state : StoreState) :
    ResolvedEndpointStore → Outcome PublishError ResolvedEndpointRecord → Prop
  | stale {record : ResolvedEndpointRecord} (hrecord : state.records[address]? = some record)
      (hnewer : publication.policyGeneration < record.policyGeneration) :
      Published store publication address state { store with state } (.error .stalePolicy)
  | panicked :
      Published store publication address state
        { store with state := state.tick, poisoned := true } .panicked
  | installed {record : ResolvedEndpointRecord} (mappingId : BitVec 128) (now expiresAt : Instant)
      (hrecord : record =
        publication.record address state.tick.nextMappingGeneration mappingId now expiresAt)
      (hnewest : ∀ old, state.records[address]? = some old →
        old.policyGeneration ≤ publication.policyGeneration) :
      Published store publication address state
      { store with state := state.tick.install address record } (.ok record)

variable (store : ResolvedEndpointStore)

theorem publishChecked_cases (publication : Publication) (now : Instant)
    (mappingId : BitVec 128) :
    (∃ e, store.publishChecked publication now mappingId = (store, .error e)) ∨
      ∃ address state,
        syntheticAddress store.config store.state publication.key = .ok
          (address, state) ∧
        Published store publication address state (store.publishChecked publication now mappingId).1
          (store.publishChecked publication now mappingId).2 := by
  unfold publishChecked
  by_cases hpoisoned : store.poisoned = true
  · rw [if_pos hpoisoned]
    exact .inl ⟨_, rfl⟩
  rw [if_neg hpoisoned]
  cases hfound : syntheticAddress store.config store.state
    publication.key with
  | error e => exact .inl ⟨e, rfl⟩
  | ok found =>
    obtain ⟨address, state⟩ := found
    refine .inr ⟨address, state, rfl, ?_⟩
    dsimp only
    by_cases hstale : (state.records[address]?.any fun record =>
        decide (publication.policyGeneration < record.policyGeneration)) = true
    · obtain ⟨record, hrecord, hnewer⟩ := (Option.any_eq_true _ _).mp hstale
      rw [if_pos hstale]
      exact .stale hrecord (of_decide_eq_true hnewer)
    · have hnewest : ∀ old, state.records[address]? = some old →
          old.policyGeneration ≤ publication.policyGeneration := by
        intro old hold
        rw [hold] at hstale
        exact UInt64.not_lt.mp (fun hlt => hstale (decide_eq_true hlt))
      rw [if_neg hstale]
      cases now.checkedAdd publication.ttl with
      | none => exact .panicked
      | some expiresAt => exact .installed mappingId now expiresAt rfl hnewest

/-- A sweep only forgets records. -/
theorem sweep_eq (expired : List IpAddr) (state : StoreState) :
    ∃ records expiredAllocations,
      expired.foldl (fun state address => { state with
        records := state.records.erase address
        expiredAllocations := state.expiredAllocations.insert address }) state =
          { state with records, expiredAllocations } ∧
        ∀ (address : IpAddr) record, records[address]? = some record →
        state.records[address]? = some record := by
  induction expired generalizing state with
  | nil => exact ⟨_, _, rfl, fun _ _ h => h⟩
  | cons swept expired ih =>
    obtain ⟨records, expiredAllocations, heq, hsub⟩ := ih { state with
      records := state.records.erase swept
      expiredAllocations := state.expiredAllocations.insert swept }
    refine ⟨records, expiredAllocations, heq, fun address record h => ?_⟩
    have hkept := hsub address record h
    rw [Std.ExtTreeMap.getElem?_erase] at hkept
    split at hkept
    next => cases hkept
    next => exact hkept

/-- What a call can do. -/
inductive Took (store : ResolvedEndpointStore) (call : Call) : ResolvedEndpointStore → Reply → Prop
  | failed {reply : Reply} (h : reply.isError = true) : Took store call store reply
  | published {publication : Publication} {address : IpAddr} {state : StoreState}
      {store' : ResolvedEndpointStore} {outcome : Outcome PublishError ResolvedEndpointRecord}
      (hkey : call.key = some publication.key)
      (hobservation : publication.contracts = [] ∨ ∃ request current now mappingId,
        call = .publish request current now mappingId)
      (hfound : syntheticAddress store.config store.state publication.key =
        .ok (address, state))
      (hpublished : Published store publication address state store' outcome) :
      Took store call store' (.published outcome)
  | swept {records : Std.ExtTreeMap IpAddr ResolvedEndpointRecord}
      {expiredAllocations : Std.ExtTreeSet IpAddr} {count : Nat}
      (hsub : ∀ (address : IpAddr) record, records[address]? = some record →
        store.state.records[address]? = some record) :
      Took store call { store with state := { store.state with records, expiredAllocations } }
        (.swept (.ok count))

theorem took_publishChecked {store : ResolvedEndpointStore} {call : Call}
    {publication : Publication} (hkey : call.key = some publication.key)
    (hobservation : publication.contracts = [] ∨ ∃ request current now mappingId,
      call = .publish request current now mappingId) (now : Instant) (mappingId : BitVec 128) :
    Took store call (store.publishChecked publication now mappingId).1
      (.published (store.publishChecked publication now mappingId).2) := by
  rcases publishChecked_cases store publication now mappingId
    with ⟨e, he⟩ | ⟨address, state, hfound, hpublished⟩
  · rw [he]
    exact .failed rfl
  · exact .published hkey hobservation hfound hpublished

theorem step_took (call : Call) :
    Took store call (step store call).1 (step store call).2 := by
  cases call with
  | publish request current now mappingId =>
    change Took store _ (store.publish request current now mappingId).1
      (.published (store.publish request current now mappingId).2)
    unfold publish
    cases hcheck : checkRequest request current with
    | error e => exact .failed rfl
    | ok publication =>
      have hkey : publication.key =
          ⟨request.normalizedName, request.family, .contracts request.allocationIdentity⟩ := by
        unfold checkRequest at hcheck
        obtain ⟨-, hcheck⟩ := else_of_ite hcheck nofun
        obtain ⟨-, ⟨⟩⟩ := else_of_ite hcheck nofun
        rfl
      have hcall : (Call.publish request current now mappingId).key = some publication.key :=
        congrArg some hkey.symm
      exact took_publishChecked hcall (.inr ⟨_, _, _, _, rfl⟩) now mappingId
  | publishObservation name family generation current now mappingId =>
    change Took store _ (store.publishObservation name family generation current now mappingId).1
      (.published (store.publishObservation name family generation current now mappingId).2)
    unfold publishObservation
    split
    next => exact .failed rfl
    next => exact took_publishChecked rfl (.inl rfl) now mappingId
  | expire now =>
    change Took store _ (store.expire now).1 (.swept (store.expire now).2)
    unfold expire
    split
    next => exact .failed rfl
    next =>
      obtain ⟨records, expiredAllocations, heq, hsub⟩ := sweep_eq
        (store.state.records.toList.filterMap fun entry =>
          if entry.2.expiresAt.nanos ≤ now.nanos then some entry.1 else none) store.state
      dsimp only
      rw [heq]
      exact .swept hsub

/-! ## What a call keeps -/

theorem syntheticAddress_spec {key : AllocationKey}
    (h : syntheticAddress config state key = .ok (address, state')) :
    state'.allocations[key]? = some address ∧
      (∀ (key' : AllocationKey) address', state.allocations[key']? = some address' →
        state'.allocations[key']? = some address') ∧
      state'.records = state.records ∧
        state'.nextMappingGeneration = state.nextMappingGeneration := by
  rcases syntheticAddress_eq_ok h with ⟨hkey, rfl⟩ | ⟨hkey, -, -, -, rfl⟩
  · exact ⟨hkey, fun _ _ h => h, rfl, rfl⟩
  · refine ⟨?_, fun key' address' h' => ?_, state.advance_records _,
      state.advance_nextMappingGeneration _⟩
    · rw [getElem?_insert_allocation, if_pos rfl]
    · rw [getElem?_insert_allocation, if_neg, h']
      rintro rfl
      rw [hkey] at h'
      cases h'

/-- A later store: every allocation is kept and the mapping generation did not go back. -/
structure Later (store store' : ResolvedEndpointStore) : Prop where
  config_eq : store'.config = store.config
  allocations : ∀ (key : AllocationKey) address, store.state.allocations[key]? = some address →
    store'.state.allocations[key]? = some address
  generation_le : store.state.nextMappingGeneration ≤ 2 ^ 64 - 1 →
    store.state.nextMappingGeneration ≤ store'.state.nextMappingGeneration ∧
      store'.state.nextMappingGeneration ≤ 2 ^ 64 - 1

theorem Later.refl : Later store store :=
  ⟨rfl, fun _ _ h => h, fun h => ⟨Nat.le_refl _, h⟩⟩

theorem Later.trans (s t u : ResolvedEndpointStore) (h : Later s t) (h' : Later t u) :
    Later s u where
  config_eq := h'.config_eq.trans h.config_eq
  allocations key address hkey := h'.allocations key address (h.allocations key address hkey)
  generation_le hs := by
    obtain ⟨hst, ht⟩ := h.generation_le hs
    obtain ⟨htu, hu⟩ := h'.generation_le ht
    exact ⟨Nat.le_trans hst htu, hu⟩

section Step
variable {config : StoreConfig} {calls bound : Nat} {store store' : ResolvedEndpointStore}
  {call : Call} {reply : Reply} {record : ResolvedEndpointRecord}

theorem Took.later (h : Took store call store' reply) : Later store store' := by
  cases h with
  | failed => exact .refl store
  | swept => exact ⟨rfl, fun _ _ h => h, fun h => ⟨Nat.le_refl _, h⟩⟩
  | @published publication address state _ _ hkey hobservation hfound hpublished =>
    obtain ⟨-, hkept, -, hsame⟩ := syntheticAddress_spec hfound
    have htick : store.state.nextMappingGeneration ≤ 2 ^ 64 - 1 →
        store.state.nextMappingGeneration ≤ state.tick.nextMappingGeneration ∧
          state.tick.nextMappingGeneration ≤ 2 ^ 64 - 1 := by
      intro hle
      change _ ≤ min (_ + 1) _ ∧ min (_ + 1) _ ≤ _
      omega
    cases hpublished with
    | stale => exact ⟨rfl, hkept, fun hle => ⟨Nat.le_of_eq hsame.symm, hsame ▸ hle⟩⟩
    | panicked | installed => exact ⟨rfl, hkept, htick⟩

/-- What holds of the whole state after some number of calls. -/
structure Wf (config : StoreConfig) (calls : Nat) (store : ResolvedEndpointStore) : Prop
    extends Allocated config calls store.state where
  config_eq : store.config = config
  recorded : ∀ (address : IpAddr) record, store.state.records[address]? = some record →
    ∃ key : AllocationKey, store.state.allocations[key]? = some address
  generation_le : store.state.nextMappingGeneration ≤ calls

theorem wf_new (config : StoreConfig) : Wf config 0 (.new config) where
  last_eq := by
    funext family
    cases family <;> rfl
  size_le := Nat.le_of_eq Std.ExtTreeMap.size_empty
  first_le family := by cases family <;> exact Nat.le_refl _
  next_le family := by cases family <;> exact Nat.le_add_right _ _
  inPool key address h := absurd (Std.ExtTreeMap.getElem?_empty.symm.trans h) nofun
  passed key address h := absurd (Std.ExtTreeMap.getElem?_empty.symm.trans h) nofun
  injective key key' address h := absurd (Std.ExtTreeMap.getElem?_empty.symm.trans h) nofun
  config_eq := rfl
  recorded address record h := absurd (Std.ExtTreeMap.getElem?_empty.symm.trans h) nofun
  generation_le := Nat.le_refl _

variable (h : Wf config calls store) (hcalls : calls < bound) (hbound : NoSaturation config bound)
include h hcalls hbound

/-- The address of a publication, from a state where the invariants hold. -/
theorem Wf.syntheticAddress {key : AllocationKey}
    (hfound : syntheticAddress store.config store.state key =
      .ok (address, state)) :
    Allocated config (calls + 1) state ∧
      (∀ record, state.records[address]? = some record → state = store.state) := by
  rw [h.config_eq] at hfound
  rcases syntheticAddress_eq_ok hfound with ⟨-, rfl⟩ | ⟨hkey, hsize, hnext, rfl, rfl⟩
  · exact ⟨h.toAllocated.mono, fun _ _ => rfl⟩
  · refine ⟨h.toAllocated.allocate hcalls hbound hsize hkey hnext, fun record hrecord => ?_⟩
    -- a fresh address has no record
    have hold : store.state.records[store.state.cursor key.family]? = some record :=
      (congrArg (·[store.state.cursor key.family]?)
        (store.state.advance_records key.family)).symm.trans hrecord
    obtain ⟨key', hkey'⟩ := h.recorded _ _ hold
    exact (h.toAllocated.ne_cursor hcalls hbound hsize hkey').elim

theorem Wf.took (htook : Took store call store' reply) : Wf config (calls + 1) store' := by
  cases htook with
  | failed =>
    exact ⟨h.toAllocated.mono, h.config_eq, h.recorded, Nat.le_succ_of_le h.generation_le⟩
  | swept hsub =>
    exact ⟨{ h.toAllocated.mono with }, h.config_eq, fun address record hrecord =>
      h.recorded address record (hsub address record hrecord), Nat.le_succ_of_le h.generation_le⟩
  | @published publication address state _ _ hkey hobservation hfound hpublished =>
    obtain ⟨hallocated, -⟩ := h.syntheticAddress hcalls hbound hfound
    obtain ⟨haddress, hkept, hrecords, hgeneration⟩ := syntheticAddress_spec hfound
    have hle : state.nextMappingGeneration ≤ calls := hgeneration ▸ h.generation_le
    have hrecorded : ∀ (address : IpAddr) record, state.records[address]? = some record →
        ∃ key : AllocationKey, state.allocations[key]? = some address := by
      intro address record hrecord
      rw [hrecords] at hrecord
      obtain ⟨key, hkey⟩ := h.recorded address record hrecord
      exact ⟨key, hkept _ _ hkey⟩
    have htick : state.tick.nextMappingGeneration ≤ calls + 1 := by
      change min (_ + 1) _ ≤ _
      omega
    cases hpublished with
    | stale => exact ⟨hallocated, h.config_eq, hrecorded, Nat.le_succ_of_le hle⟩
    | panicked => exact ⟨{ hallocated with }, h.config_eq, hrecorded, htick⟩
    | @installed record =>
      refine ⟨{ hallocated with }, h.config_eq, fun address' record' hrecord' => ?_, htick⟩
      change (state.records.insert address record)[address']? = _ at hrecord'
      rw [Std.ExtTreeMap.getElem?_insert] at hrecord'
      split at hrecord'
      next heq => exact ⟨publication.key, Std.LawfulEqCmp.eq_of_compare heq ▸ haddress⟩
      next => exact hrecorded _ _ hrecord'

/-- A failed call leaves the store as it was. -/
theorem Wf.eq_of_isError (htook : Took store call store' reply) (herror : reply.isError = true) :
    store' = store := by
  cases htook with
  | failed => rfl
  | swept => cases herror
  | published hkey hobservation hfound hpublished =>
    cases hpublished with
    | stale hrecord hnewer =>
      obtain ⟨-, hsame⟩ := h.syntheticAddress hcalls hbound hfound
      rw [hsame _ hrecord]
    | panicked => cases herror
    | installed => cases herror

omit h hcalls hbound

/-- A published record: its address is the one allocated to the key of the call, and it
is installed under it. -/
theorem Took.published_ok (h : Took store call store' (.published (.ok record))) :
    ∃ key : AllocationKey, call.key = some key ∧ record.family = key.family ∧
      store'.state.allocations[key]? = some record.syntheticAddress ∧
      store'.state.records = store.state.records.insert record.syntheticAddress record ∧
      store'.state.nextMappingGeneration = record.mappingGeneration ∧
      record.mappingGeneration = min (store.state.nextMappingGeneration + 1) (2 ^ 64 - 1) ∧
      (∀ old, store.state.records[record.syntheticAddress]? = some old →
        old.policyGeneration ≤ record.policyGeneration) ∧
      (record.contracts = [] ∨ ∃ request current now mappingId,
        call = .publish request current now mappingId) := by
  cases h with
  | failed h => cases h
  | @published publication address state _ _ hkey hobservation hfound hpublished =>
    obtain ⟨haddress, -, hrecords, hgeneration⟩ := syntheticAddress_spec hfound
    cases hpublished with
    | installed mappingId now expiresAt hrecord hnewest =>
      subst hrecord
      refine ⟨publication.key, hkey, rfl, haddress, ?_, rfl, ?_, ?_, hobservation⟩
      · change state.records.insert _ _ = _
        rw [hrecords]
        rfl
      · change min (_ + 1) _ = _
        rw [hgeneration]
      · rw [← hrecords]
        exact hnewest

/-- A record of the store after a call was there before it, or is the one published. -/
theorem Took.records (h : Took store call store' reply)
    (hrecord : store'.state.records[address]? = some record) :
    store.state.records[address]? = some record ∨
      (reply = .published (.ok record) ∧ record.syntheticAddress = address) := by
  cases h with
  | failed => exact .inl hrecord
  | swept hsub => exact .inl (hsub address record hrecord)
  | @published publication _ state _ outcome hkey hobservation hfound hpublished =>
    obtain ⟨-, -, hrecords, -⟩ := syntheticAddress_spec hfound
    cases hpublished with
    | stale | panicked => exact .inl (hrecords ▸ hrecord)
    | @installed new mappingId now expiresAt hnew hnewest =>
      change (state.records.insert _ new)[address]? = _ at hrecord
      rw [Std.ExtTreeMap.getElem?_insert] at hrecord
      split at hrecord
      next heq =>
        cases hrecord
        refine .inr ⟨rfl, ?_⟩
        rw [hnew]
        exact Std.LawfulEqCmp.eq_of_compare heq
      next => exact .inl (hrecords ▸ hrecord)

end Step

end OpenShell.PolicyDns
