import OpenShell.PolicyDns.StoreRun

/-!
# One destination for one synthetic address

Over a whole run of the store, a synthetic address stands for one allocation key
and a lookup returns a record that is live. This holds exactly while no pool that
ends at the last address of its address space is asked for more addresses than it
has, and while the mapping generation has not reached the end of its type.
-/

namespace OpenShell.PolicyDns

open ResolvedEndpointStore (checkRequest lookup publish publishChecked syntheticAddress)

/-- The events of a run of a new store. -/
def events (config : StoreConfig) (calls : List Call) :
    List (Event ResolvedEndpointStore Call Reply) :=
  Run.trace step (.new config) calls

structure RunSafe (config : StoreConfig) (calls : List Call) : Prop where
  /-- An address handed out lies in the pool of its family. -/
  inPool : ∀ e ∈ events config calls, ∀ record, e.outcome = .published (.ok record) →
    record.family.accepts record.syntheticAddress = true ∧
      config.pools.first record.family ≤ ipNumber record.syntheticAddress ∧
      ipNumber record.syntheticAddress ≤ config.pools.last record.family
  /-- An address is handed out for one allocation key. -/
  oneKey : ∀ e ∈ events config calls, ∀ e' ∈ events config calls, ∀ record record',
    e.outcome = .published (.ok record) → e'.outcome = .published (.ok record') →
      record.syntheticAddress = record'.syntheticAddress → e.call.key = e'.call.key
  /-- A lookup returns a live record of the current generation with a contract for the
  port, which `publish` returned for this address. -/
  lookup : ∀ address port currentPolicyGeneration now found,
    (Run.after step (.new config) calls).lookup address port currentPolicyGeneration
    now = .ok found →
      (∃ e ∈ events config calls, e.outcome = .published (.ok found.record) ∧
        ∃ request current now mappingId, e.call = .publish request current now mappingId) ∧
      found.record.syntheticAddress = address ∧ now.nanos < found.record.expiresAt.nanos ∧
      found.record.policyGeneration = currentPolicyGeneration ∧
      (∃ contract ∈ found.record.contracts, contract.port = port) ∧
      found.record.isObservation = false
  /-- Mapping generations strictly increase. -/
  increasing : (events config calls).Pairwise fun e e' => ∀ record record',
    e.outcome = .published (.ok record) → e'.outcome = .published (.ok record') →
      record.mappingGeneration < record'.mappingGeneration
  /-- No record is replaced by one of an older policy generation. -/
  newer : ∀ e ∈ events config calls, ∀ (address : IpAddr) record record',
    e.before.state.records[address]? = some record →
    e.after.state.records[address]? = some record' →
      record.policyGeneration ≤ record'.policyGeneration
  /-- A call that returns an error leaves the store as it was. -/
  failed : ∀ e ∈ events config calls, e.outcome.isError = true → e.after = e.before

variable {address : IpAddr}

section Safe
variable {config : StoreConfig} {bound : Nat} {calls : List Call} {store : ResolvedEndpointStore}
  {e : Event ResolvedEndpointStore Call Reply}

theorem took_of_mem_events (h : e ∈ Run.trace step store calls) :
    Took e.before e.call e.after e.outcome :=
  (Run.of_mem_trace h (step_took _ _)).2

theorem wf_after (hbound : NoSaturation config bound) (hcalls : calls.length ≤ bound) :
    Wf config calls.length (Run.after step (.new config) calls) := by
  have hwf : Wf config (0 + calls.length) (Run.after step (.new config) calls) :=
    Run.after_invariant bound (fun k s call hk hs => hs.took hk hbound (step_took s call))
      (wf_new config) calls
      (by omega)
  rwa [Nat.zero_add] at hwf

/-- The invariants before every call of a run. -/
theorem wf_of_mem_events (hbound : NoSaturation config bound) (hcalls : calls.length ≤ bound)
    (h : e ∈ events config calls) :
    ∃ k < bound, Wf config k e.before := by
  obtain ⟨pre, post, rfl, hbefore, -⟩ := Run.mem_trace h
  have hlength : pre.length < bound := by
    rw [List.length_append, List.length_cons] at hcalls
    omega
  exact ⟨pre.length, hlength, hbefore ▸ wf_after hbound (Nat.le_of_lt hlength)⟩

/-- The allocation of a published key is the one at the end of the run. -/
theorem allocated_of_published (h : e ∈ events config calls)
    {record : ResolvedEndpointRecord} (hok : e.outcome = .published (.ok record)) :
    ∃ key : AllocationKey, e.call.key = some key ∧ record.family = key.family ∧
      (Run.after step (.new config) calls).state.allocations[key]? =
        some record.syntheticAddress := by
  have htook := took_of_mem_events h
  rw [hok] at htook
  obtain ⟨key, hkey, hfamily, hallocated, -⟩ := htook.published_ok
  have hlater :=
    Run.related_of_mem_trace Later.refl Later.trans (fun s call => (step_took s call).later) h
  exact ⟨key, hkey, hfamily, hlater.allocations key _ hallocated⟩

/-- A record of the store was published, and is installed under its own address. -/
theorem published_of_records {record : ResolvedEndpointRecord}
    (h : (Run.after step store calls).state.records[address]? = some record) :
    store.state.records[address]? = some record ∨ ∃ e ∈ Run.trace step store calls,
      e.outcome = .published (.ok record) ∧ record.syntheticAddress = address :=
  Run.of_after (P := fun store => store.state.records[address]? = some record)
    (fun _ he h => (took_of_mem_events he).records h) h

theorem lookup_eq_ok {port : UInt16}
    {currentPolicyGeneration : UInt64} {now : Instant} {found : MappingLookup}
    (h : store.lookup address port currentPolicyGeneration now = .ok found) :
    store.state.records[address]? = some found.record ∧ now.nanos < found.record.expiresAt.nanos ∧
      found.record.policyGeneration = currentPolicyGeneration ∧
      ∃ contract ∈ found.record.contracts, contract.port = port := by
  unfold lookup at h
  obtain ⟨-, h⟩ := else_of_ite h nofun
  obtain ⟨record, hlive, h⟩ := bind_eq_ok h
  obtain ⟨hport, ⟨⟩⟩ := else_of_ite h nofun
  unfold liveRecord at hlive
  split at hlive
  next => split at hlive <;> cases hlive
  next found hfound =>
    obtain ⟨hexpired, hlive⟩ := else_of_ite hlive nofun
    obtain ⟨hgeneration, ⟨⟩⟩ := else_of_ite hlive nofun
    obtain ⟨contract, hmem, hcontract⟩ : ∃ contract ∈ record.contracts, contract.port = port := by
      simpa using hport
    exact ⟨hfound, Int.lt_of_not_ge hexpired, Decidable.of_not_not hgeneration, contract,
      hmem, hcontract⟩

theorem runSafe_of (hbound : NoSaturation config bound) (hgenerations : bound < 2 ^ 64)
    (hcalls : calls.length ≤ bound) : RunSafe config calls where
  inPool e he record hok := by
    obtain ⟨key, -, hfamily, hkey⟩ := allocated_of_published he hok
    rw [hfamily]
    exact (wf_after hbound hcalls).inPool key _ hkey
  oneKey e he e' he' record record' hok hok' hsame := by
    obtain ⟨key, hcall, -, hkey⟩ := allocated_of_published he hok
    obtain ⟨key', hcall', -, hkey'⟩ := allocated_of_published he' hok'
    rw [hcall, hcall', (wf_after hbound hcalls).injective key key' _ hkey (hsame ▸ hkey')]
  lookup address port currentPolicyGeneration now found h := by
    obtain ⟨hrecord, hlive, hgeneration, contract, hmem, hport⟩ := lookup_eq_ok h
    have hobservation : found.record.contracts ≠ [] := List.ne_nil_of_mem hmem
    rcases published_of_records hrecord with hnew | ⟨e, he, hok, haddress⟩
    · change (∅ : Std.ExtTreeMap IpAddr ResolvedEndpointRecord)[address]? = _ at hnew
      simp at hnew
    · have htook := took_of_mem_events he
      rw [hok] at htook
      obtain ⟨-, -, -, -, -, -, -, -, hcall⟩ := htook.published_ok
      exact ⟨⟨e, he, hok, hcall.resolve_left hobservation⟩, haddress, hlive, hgeneration,
        ⟨contract, hmem, hport⟩, by simpa [ResolvedEndpointRecord.isObservation] using hobservation⟩
  increasing := by
    have hpairs :=
      Run.trace_pairwise Later.refl Later.trans (fun s call => (step_took s call).later)
      (ResolvedEndpointStore.new config) calls
    refine hpairs.imp_of_mem fun {e e'} he he' hlater record record' hok hok' => ?_
    have htook := took_of_mem_events he
    rw [hok] at htook
    obtain ⟨-, -, -, -, -, hgeneration, hcapped, -⟩ := htook.published_ok
    have htook' := took_of_mem_events he'
    rw [hok'] at htook'
    obtain ⟨-, -, -, -, -, -, hnext, -⟩ := htook'.published_ok
    obtain ⟨k, hk, hwf⟩ := wf_of_mem_events hbound hcalls he'
    have hle := hwf.generation_le
    have hmono := (hlater.generation_le (by omega)).1
    omega
  newer e he address record record' hbefore hafter := by
    have htook := took_of_mem_events he
    rcases htook.records hafter with hsame | ⟨hok, haddress⟩
    · rw [hbefore] at hsame
      cases hsame
      exact UInt64.le_refl _
    · rw [hok] at htook
      obtain ⟨-, -, -, -, -, -, -, hnewest, -⟩ := htook.published_ok
      exact hnewest record (haddress ▸ hbefore)
  failed e he herror := by
    obtain ⟨k, hk, hwf⟩ := wf_of_mem_events hbound hcalls he
    exact hwf.eq_of_isError hk hbound (took_of_mem_events he) herror

end Safe

/-! ## Runs that are not safe -/

/-- The publication number `i` of a family. -/
def numberedRequest (family : AddressFamily) (i : Nat) : PublishRequest where
  normalizedName := ⟨"a"⟩
  family := family
  allocationIdentity := BitVec.ofNat 256 i
  policyGeneration := 0
  ttl := 1
  contracts := [⟨⟨"p", 0⟩, 1, [match family with | .ipv4 => .v4 0 | .ipv6 => .v6 0]⟩]

def numberedCall (family : AddressFamily) (i : Nat) : Call :=
  .publish (numberedRequest family i) 0 ⟨0⟩ 0

def numberedKey (family : AddressFamily) (i : Nat) : AllocationKey :=
  ⟨⟨"a"⟩, family, .contracts (BitVec.ofNat 256 i)⟩

theorem checkRequest_numbered (family : AddressFamily) (i : Nat) :
    checkRequest (numberedRequest family i) 0 =
      .ok ⟨numberedKey family i, 0, 1, (numberedRequest family i).contracts⟩ := by
  cases family <;> rfl

section Numbered
variable {config : StoreConfig} {family : AddressFamily} {i k : Nat} {store : ResolvedEndpointStore}

/-- Every record is of the first policy generation. -/
def FirstGeneration (state : StoreState) : Prop :=
  ∀ (address : IpAddr) record, state.records[address]? = some record → record.policyGeneration = 0

variable {state : StoreState}

theorem step_numberedCall (hpoisoned : store.poisoned = false)
    (hfound : syntheticAddress store.config store.state
      (numberedKey family i) = .ok (address, state)) (hrecords : FirstGeneration state) :
    ∃ record : ResolvedEndpointRecord, step store (numberedCall family i) =
        ({ store with state := state.tick.install address record }, .published (.ok record)) ∧
      record.syntheticAddress = address ∧
      record.mappingGeneration = state.tick.nextMappingGeneration ∧
      FirstGeneration (state.tick.install address record) := by
  have hfresh : ¬ (state.records[address]?.any fun record =>
      decide ((0 : UInt64) < record.policyGeneration)) = true := by
    intro hany
    obtain ⟨record, hrecord, hlt⟩ := (Option.any_eq_true _ _).mp hany
    rw [hrecords address record hrecord] at hlt
    exact absurd hlt (by decide)
  have hexpires : (⟨0⟩ : Instant).checkedAdd 1 = some ⟨1⟩ := rfl
  refine ⟨Publication.record
    ⟨numberedKey family i, 0, 1, (numberedRequest family i).contracts⟩ address
    state.tick.nextMappingGeneration 0 ⟨0⟩ ⟨1⟩, ?_, rfl, rfl, fun a record hrecord => ?_⟩
  · change (((store.publish (numberedRequest family i) 0 ⟨0⟩ 0).1,
      Reply.published (store.publish (numberedRequest family i) 0 ⟨0⟩ 0).2)) = _
    unfold publish
    rw [checkRequest_numbered]
    dsimp only
    unfold publishChecked
    rw [if_neg (by rw [hpoisoned]; exact Bool.false_ne_true), hfound]
    dsimp only
    rw [if_neg hfresh, hexpires]
    rfl
  · change (state.records.insert _ _)[a]? = _ at hrecord
    rw [Std.ExtTreeMap.getElem?_insert] at hrecord
    split at hrecord
    next =>
      cases hrecord
      rfl
    next => exact hrecords a record hrecord

/-! ### The same publication over and over -/

structure Steady (generation : Nat) (store : ResolvedEndpointStore) : Prop where
  running : store.poisoned = false
  allocated : ∃ address, store.state.allocations[numberedKey .ipv4 0]? = some address
  records : FirstGeneration store.state
  generation_eq : store.state.nextMappingGeneration = generation

theorem Steady.step {generation : Nat} (h : Steady generation store) :
    ∃ record : ResolvedEndpointRecord,
      (step store (numberedCall .ipv4 0)).2 = .published (.ok record) ∧
      record.mappingGeneration = min (generation + 1) (2 ^ 64 - 1) ∧
      Steady (min (generation + 1) (2 ^ 64 - 1)) (step store (numberedCall .ipv4 0)).1 := by
  obtain ⟨address, haddress⟩ := h.allocated
  have hfound : syntheticAddress store.config store.state
      (numberedKey .ipv4 0) = .ok (address, store.state) := by
    unfold syntheticAddress
    rw [haddress]
  obtain ⟨record, hstep, -, hgeneration, hrecords⟩ := step_numberedCall h.running hfound h.records
  have htick : store.state.tick.nextMappingGeneration = min (generation + 1) (2 ^ 64 - 1) := by
    rw [← h.generation_eq]
    rfl
  rw [hstep]
  exact ⟨record, rfl, hgeneration.trans htick, h.running, ⟨address, haddress⟩, hrecords, htick⟩

/-- A new key takes the address at the cursor. -/
theorem syntheticAddress_fresh (hkey : state.allocations[numberedKey family i]? = none)
    (hsize : state.allocations.size < config.maxMappings)
    (hnext : state.next family ≤ state.last family) :
    syntheticAddress config state (numberedKey family i) =
      .ok (state.cursor family, { state.advance family with
        allocations :=
      state.allocations.insert (numberedKey family i) (state.cursor family) }) := by
  unfold syntheticAddress
  rw [hkey]
  dsimp only
  have hallocate : allocateAddress state (numberedKey family i).family =
      some (state.cursor family, state.advance family) := by
    rw [allocateAddress_eq]
    exact if_pos hnext
  rw [if_neg (fun h => nomatch h.1), if_neg (Nat.not_le_of_lt hsize), hallocate]
  dsimp only
  rw [StoreState.advance_allocations]

theorem firstGeneration_new (config : StoreConfig) :
    FirstGeneration (ResolvedEndpointStore.new config).state := by
  intro address record h
  change (∅ : Std.ExtTreeMap IpAddr ResolvedEndpointRecord)[address]? = _ at h
  simp at h

theorem steady_first (config : StoreConfig) :
    Steady 1 (step (.new config) (numberedCall .ipv4 0)).1 := by
  have hkey : (ResolvedEndpointStore.new config).state.allocations[numberedKey .ipv4 0]? = none :=
    Std.ExtTreeMap.getElem?_empty
  have hsize : (ResolvedEndpointStore.new config).state.allocations.size < config.maxMappings := by
    have hempty : (ResolvedEndpointStore.new config).state.allocations.size = 0 :=
      Std.ExtTreeMap.size_empty
    have hnonzero := config.nonzero
    omega
  have hfound := syntheticAddress_fresh hkey hsize (config.pools.first_le_last .ipv4)
  have hrunning : (ResolvedEndpointStore.new config).poisoned = false := rfl
  obtain ⟨record, hstep, -, -, hrecords⟩ :=
    step_numberedCall hrunning hfound (firstGeneration_new config)
  rw [hstep]
  exact ⟨rfl, ⟨_, (syntheticAddress_spec hfound).1⟩, hrecords, rfl⟩

theorem steady_after (config : StoreConfig) (n : Nat) :
    Steady (min (n + 1) (2 ^ 64 - 1))
      (Run.after step (.new config) (List.replicate (n + 1) (numberedCall .ipv4 0))) := by
  induction n with
  | zero => exact steady_first config
  | succ n ih =>
    obtain ⟨-, -, -, hnext⟩ := ih.step
    rw [List.replicate_succ', Run.after_append]
    have hgeneration : min (min (n + 1) (2 ^ 64 - 1) + 1) (2 ^ 64 - 1) = min (n + 1 + 1)
        (2 ^ 64 - 1) := by omega
    exact hgeneration ▸ hnext

/-- With the generation at its end, two more publications have the same one. -/
theorem not_runSafe_steady (config : StoreConfig) :
    ¬ RunSafe config (List.replicate (2 ^ 64 - 3 + 1) (numberedCall .ipv4 0) ++
      [numberedCall .ipv4 0, numberedCall .ipv4 0]) := by
  intro hsafe
  have hsteady := steady_after config (2 ^ 64 - 3)
  obtain ⟨record, hok, hgeneration, hnext⟩ := hsteady.step
  obtain ⟨record', hok', hgeneration', -⟩ := hnext.step
  have hincreasing := hsafe.increasing
  unfold events at hincreasing
  rw [Run.trace_append] at hincreasing
  have hlast := (List.pairwise_append.mp hincreasing).2.1
  have hlt := List.rel_of_pairwise_cons hlast List.mem_cons_self record record' hok hok'
  omega

/-! ### One publication after the other -/

theorem numberedKey_injective {j : Nat} (hi : i < 2 ^ 256) (hj : j < 2 ^ 256)
    (h : numberedKey family i = numberedKey family j) : i = j := by
  have hdigest : BitVec.ofNat 256 i = BitVec.ofNat 256 j := by
    injection h with _ _ hidentity
    injection hidentity
  have hnat := congrArg BitVec.toNat hdigest
  rwa [BitVec.toNat_ofNat, BitVec.toNat_ofNat, Nat.mod_eq_of_lt hi, Nat.mod_eq_of_lt hj] at hnat

/-- The store after the first `k` publications of a family. -/
structure Filled (config : StoreConfig) (family : AddressFamily) (k : Nat)
    (store : ResolvedEndpointStore) : Prop where
  running : store.poisoned = false
  config_eq : store.config = config
  last_eq : store.state.last = config.pools.last
  next_eq : store.state.next family = min (config.pools.first family + k) (2 ^ family.width - 1)
  size_eq : store.state.allocations.size = k
  keys : ∀ (key : AllocationKey) address, store.state.allocations[key]? = some address →
    ∃ i < k, key = numberedKey family i
  records : FirstGeneration store.state

theorem filled_new (config : StoreConfig) (family : AddressFamily) :
    Filled config family 0 (.new config) where
  running := rfl
  config_eq := rfl
  last_eq := (wf_new config).last_eq
  next_eq := by
    have hle := config.pools.first_le_last family
    have hlt := config.pools.last_lt family
    have hnext : (ResolvedEndpointStore.new config).state.next family =
        config.pools.first family := by
      cases family <;> rfl
    omega
  size_eq := Std.ExtTreeMap.size_empty
  keys key address h := by
    change (∅ : Std.ExtTreeMap AllocationKey IpAddr)[key]? = _ at h
    simp at h
  records := firstGeneration_new config

theorem Filled.step (h : Filled config family k store)
    (hlast : config.pools.last family = 2 ^ family.width - 1)
    (hk : k < config.maxMappings) (hsmall : k < 2 ^ 256) :
    ∃ record : ResolvedEndpointRecord, (step store (numberedCall family k)).2 = .published
      (.ok record) ∧ record.syntheticAddress = store.state.cursor family ∧
      Filled config family (k + 1) (step store (numberedCall family k)).1 := by
  have hkey : store.state.allocations[numberedKey family k]? = none := by
    cases hfound : store.state.allocations[numberedKey family k]? with
    | none => rfl
    | some address =>
      obtain ⟨i, hi, heq⟩ := h.keys _ _ hfound
      have := numberedKey_injective hsmall (Nat.lt_trans hi hsmall) heq
      omega
  have hsize : store.state.allocations.size < store.config.maxMappings := by
    rw [h.size_eq, h.config_eq]
    exact hk
  have hnext : store.state.next family ≤ store.state.last family := by
    rw [h.next_eq, h.last_eq, hlast]
    exact Nat.min_le_right _ _
  obtain ⟨record, hstep, haddress, -, hrecords⟩ :=
    step_numberedCall h.running (syntheticAddress_fresh hkey hsize hnext)
    (show FirstGeneration { store.state.advance family with allocations := _ } from
      fun address record hrecord =>
      h.records address record
      ((congrArg (·[address]?) (store.state.advance_records family)).symm.trans hrecord))
  rw [hstep]
  refine ⟨record, rfl, haddress, h.running, h.config_eq,
    (store.state.advance_last family).trans h.last_eq, ?_, ?_, ?_, hrecords⟩
  · change (store.state.advance family).next family = _
    rw [store.state.advance_next, h.next_eq]
    omega
  · change (store.state.allocations.insert _ _).size = _
    rw [size_insert_allocation _ hkey, h.size_eq]
  · intro key address hfound
    change (store.state.allocations.insert _ _)[key]? = _ at hfound
    rw [getElem?_insert_allocation] at hfound
    split at hfound
    next heq => exact ⟨k, Nat.lt_succ_self k, heq.symm⟩
    next =>
      obtain ⟨i, hi, heq⟩ := h.keys key address hfound
      exact ⟨i, Nat.lt_succ_of_lt hi, heq⟩

theorem filled_after (hlast : config.pools.last family = 2 ^ family.width - 1)
    (hk : k ≤ config.maxMappings) (hsmall : k ≤ 2 ^ 256) :
    Filled config family k
      (Run.after step (.new config) ((List.range k).map (numberedCall family))) := by
  induction k with
  | zero => exact filled_new config family
  | succ k ih =>
    obtain ⟨-, -, -, hnext⟩ := (ih (by omega) (by omega)).step hlast (by omega) (by omega)
    rw [List.range_succ, List.map_append, Run.after_append]
    exact hnext

/-- One publication more than the pool has addresses: the last address is handed out again. -/
theorem not_runSafe_filled (hlast : config.pools.last family = 2 ^ family.width - 1)
    (hsize : config.pools.size family < config.maxMappings) :
    ¬ RunSafe config ((List.range (config.pools.size family + 1)).map (numberedCall family)) := by
  intro hsafe
  have hlt := config.pools.last_lt family
  have hle := config.pools.first_le_last family
  have hwidth : 2 ^ family.width ≤ 2 ^ 128 := by cases family <;> decide
  obtain ⟨m, hm⟩ : ∃ m, config.pools.size family = m + 1 := ⟨_, rfl⟩
  have hfirst : config.pools.first family + m = 2 ^ family.width - 1 := by
    unfold SyntheticPools.size at hm
    omega
  rw [hm] at hsafe hsize
  have hfilled := filled_after (k := m) hlast (by omega) (by omega)
  obtain ⟨record, hok, haddress, hfull⟩ := hfilled.step hlast (by omega) (by omega)
  obtain ⟨record', hok', haddress', -⟩ := hfull.step hlast (by omega) (by omega)
  have hevents : events config ((List.range (m + 1 + 1)).map (numberedCall family)) =
      events config ((List.range m).map (numberedCall family)) ++
        Run.trace step (Run.after step (.new config) ((List.range m).map (numberedCall family)))
          [numberedCall family m, numberedCall family (m + 1)] := by
    unfold events
    rw [List.range_succ, List.range_succ, List.map_append, List.map_append, List.append_assoc,
      Run.trace_append]
    rfl
  have hsame : record.syntheticAddress = record'.syntheticAddress := by
    rw [haddress, haddress']
    refine ip_ext (StoreState.accepts_cursor _ family) (StoreState.accepts_cursor _ family) ?_
    rw [StoreState.ipNumber_cursor, StoreState.ipNumber_cursor, hfilled.next_eq, hfull.next_eq]
    omega
  have hkey := hsafe.oneKey _ (by rw [hevents]; exact List.mem_append_right _ List.mem_cons_self) _
    (by rw [hevents]; exact List.mem_append_right _ (List.mem_cons_of_mem _ List.mem_cons_self))
    record record' hok hok' hsame
  have := numberedKey_injective (by omega) (by omega) (Option.some.inj hkey)
  omega

end Numbered

/-- Runs of a bounded length are safe exactly if the generations cannot wrap around and no pool that
ends at the last address of its family can be used up. -/
theorem runSafe_iff (config : StoreConfig) (bound : Nat) :
    (∀ calls : List Call, calls.length ≤ bound → RunSafe config calls) ↔
      bound < 2 ^ 64 ∧ ∀ family, config.pools.last family = 2 ^ family.width - 1 →
        min bound config.maxMappings ≤ config.pools.capacity family := by
  constructor
  · intro hsafe
    have hbound : bound < 2 ^ 64 := by
      refine Nat.lt_of_not_le fun hle => not_runSafe_steady config (hsafe _ ?_)
      rw [List.length_append, List.length_replicate]
      exact hle
    refine ⟨hbound, fun family hlast => Nat.le_of_not_lt fun hlt => ?_⟩
    have hcapacity : config.pools.capacity family = min (config.pools.size family)
        (2 ^ 64 - 1) := rfl
    refine not_runSafe_filled hlast (by omega) (hsafe _ ?_)
    rw [List.length_map, List.length_range]
    omega
  · rintro ⟨hbound, hcapacity⟩ calls hcalls
    have hsaturation : NoSaturation config bound := fun family hlast =>
      Nat.le_trans (hcapacity family hlast) (Nat.min_le_left _ _)
    exact runSafe_of hsaturation hbound hcalls

/-- A pool of the one address 255.255.255.255. -/
def lastAddressPools : SyntheticPools where
  ipv4Start := 0xFFFFFFFF#32
  ipv4End := 0xFFFFFFFF#32
  ipv6Start := 0xFD000000000000000000000000000001#128
  ipv6End := 0xFD000000000000000000000000000001#128
  ipv4_nonempty := by decide
  ipv6_nonempty := by decide
  ipv4_allowed := by decide
  ipv6_allowed := by decide

def lastAddressConfig : StoreConfig := ⟨lastAddressPools, 2, by decide⟩

theorem not_runSafe_lastAddress :
    SyntheticPools.new 0xFFFFFFFF#32 0xFFFFFFFF#32 0xFD000000000000000000000000000001#128
        0xFD000000000000000000000000000001#128 = .ok lastAddressPools ∧
      ¬ RunSafe lastAddressConfig [numberedCall .ipv4 0, numberedCall .ipv4 1] := by
  have hlast : lastAddressConfig.pools.last .ipv4 = 2 ^ AddressFamily.ipv4.width - 1 := rfl
  have hsize : lastAddressConfig.pools.size .ipv4 < lastAddressConfig.maxMappings := by decide
  have hunsafe := not_runSafe_filled hlast hsize
  exact ⟨rfl, hunsafe⟩

end OpenShell.PolicyDns
