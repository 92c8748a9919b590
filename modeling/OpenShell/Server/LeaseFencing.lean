import OpenShell.Server.Lease

/-!
# Fencing by resource version

Within one life of the row the version only grows, so a guard that was overtaken
never matches again. A row created after a deletion starts at version one: a guard
from before the deletion is safe only if nobody holds it any more.
-/

namespace OpenShell.Server.Lease

open Persistence (Objects ObjectRecord)

/-! ## The version of the lease -/

def leaseVersion (store : LeaseStore) : Option Nat :=
  (store.get leaseSingletonId).map (·.resourceVersion)

variable {store : LeaseStore} {version : Nat}

theorem leaseVersion_eq_some_iff :
    leaseVersion store = some version ↔
      ∃ row ∈ store.rows, row.id = leaseSingletonId ∧ row.resourceVersion = version := by
  unfold leaseVersion
  constructor
  · intro h
    obtain ⟨row, hrow, hversion⟩ := Option.map_eq_some_iff.mp h
    obtain ⟨hmem, hid⟩ := Objects.get_eq_some_iff.mp hrow
    exact ⟨row, hmem, hid, hversion⟩
  · rintro ⟨row, hmem, hid, hversion⟩
    rw [Objects.get_eq_some_iff.mpr ⟨hmem, hid⟩, ← hversion]
    rfl

theorem leaseVersion_eq_none_iff :
    leaseVersion store = none ↔ ∀ row ∈ store.rows, row.id ≠ leaseSingletonId := by
  constructor
  · intro h row hmem hid
    rw [leaseVersion_eq_some_iff.mpr ⟨row, hmem, hid, rfl⟩] at h
    cases h
  · intro h
    cases hversion : leaseVersion store with
    | none => rfl
    | some version =>
      obtain ⟨row, hmem, hid, -⟩ := leaseVersion_eq_some_iff.mp hversion
      exact absurd hid (h row hmem)

section Calls
variable (store : LeaseStore) (replicaId : String) (acquiredAtMs nowMs : Int) {expected : Nat}

theorem tryAcquire_cases :
    (∃ store' guard, tryAcquire store replicaId acquiredAtMs nowMs = (store', .ok guard) ∧
      leaseVersion store = none ∧ leaseVersion store' = some 1 ∧ guard.resourceVersion = 1) ∨
    tryAcquire store replicaId acquiredAtMs nowMs = (store, .error .alreadyHeld) := by
  unfold tryAcquire
  cases h : store.insertNew leaseSingletonId leaseSingletonName ""
    ⟨replicaId, acquiredAtMs⟩ nowMs with
  | none => exact .inr rfl
  | some store' =>
    obtain ⟨hfresh, hrows⟩ := Objects.insertNew_eq_some h
    refine .inl
      ⟨store', _, rfl, leaseVersion_eq_none_iff.mpr fun row hrow => (hfresh row hrow).1, ?_, rfl⟩
    have hmem : ⟨leaseSingletonId, leaseSingletonName, "", ⟨replicaId, acquiredAtMs⟩, nowMs, nowMs,
        1⟩ ∈ store'.rows := by
      rw [hrows]
      exact List.mem_concat_self ..
    exact leaseVersion_eq_some_iff.mpr ⟨_, hmem, rfl, rfl⟩

variable {store}

theorem writeLease_of_eq (h : leaseVersion store = some expected) :
    ∃ store' guard, writeLease store replicaId acquiredAtMs expected nowMs = (store', .ok guard) ∧
      leaseVersion store' = some (expected + 1) ∧ guard.resourceVersion = expected + 1 := by
  unfold writeLease
  cases hput : store.putIf leaseSingletonId expected ⟨replicaId, acquiredAtMs⟩ nowMs with
  | none =>
    obtain ⟨row, hrow, hid, hversion⟩ := leaseVersion_eq_some_iff.mp h
    exact absurd hversion (Objects.putIf_eq_none_iff.mp hput row hrow hid)
  | some store' =>
    obtain ⟨old, -, hid, -, hrows⟩ := Objects.mem_putIf hput
    refine ⟨store', _, rfl,
      leaseVersion_eq_some_iff.mpr ⟨_, (hrows _).mpr (.inr rfl), hid, rfl⟩, rfl⟩

theorem writeLease_of_ne (h : leaseVersion store ≠ some expected) :
    writeLease store replicaId acquiredAtMs expected nowMs = (store, .error .conflict) := by
  unfold writeLease
  have hput : store.putIf leaseSingletonId expected ⟨replicaId, acquiredAtMs⟩ nowMs = none :=
    Objects.putIf_eq_none_iff.mpr fun row hrow hid hversion =>
      h (leaseVersion_eq_some_iff.mpr ⟨row, hrow, hid, hversion⟩)
  rw [hput]

variable {guard : LeaseGuard} (rowSeen : Bool)

theorem release_of_eq (h : leaseVersion store = some guard.resourceVersion) :
    ∃ store', release store guard rowSeen = (store', .ok true) ∧ leaseVersion store' = none := by
  have hdeleted : (store.deleteIf leaseSingletonId guard.resourceVersion).2 = true :=
    Objects.deleteIf_snd.mpr (leaseVersion_eq_some_iff.mp h)
  refine ⟨(store.deleteIf leaseSingletonId guard.resourceVersion).1, ?_, ?_⟩
  · unfold release
    cases hdelete : store.deleteIf leaseSingletonId guard.resourceVersion with
    | mk store' deleted =>
      rw [hdelete] at hdeleted
      obtain rfl : deleted = true := hdeleted
      rfl
  · refine leaseVersion_eq_none_iff.mpr fun row hrow hid => ?_
    obtain ⟨hmem, hkept⟩ := Objects.mem_deleteIf.mp hrow
    obtain ⟨found, hfound, hfoundId, hversion⟩ := leaseVersion_eq_some_iff.mp h
    rw [Objects.eq_of_id hmem hfound (hid.trans hfoundId.symm)] at hkept
    exact hkept ⟨hfoundId, hversion⟩

theorem release_of_ne (h : leaseVersion store ≠ some guard.resourceVersion) :
    release store guard rowSeen = (store, if rowSeen then .error .conflict else .ok false) := by
  have hdeleted : (store.deleteIf leaseSingletonId guard.resourceVersion).2 = false :=
    Bool.eq_false_iff.mpr fun hdeleted =>
      h (leaseVersion_eq_some_iff.mpr (Objects.deleteIf_snd.mp hdeleted))
  have hsame := Objects.deleteIf_eq_self hdeleted
  unfold release
  cases hdelete : store.deleteIf leaseSingletonId guard.resourceVersion with
  | mk store' deleted =>
    rw [hdelete] at hdeleted hsame
    obtain rfl : deleted = false := hdeleted
    obtain rfl : store' = store := hsame
    rfl

end Calls

/-! ## One call -/

/-- The call renews or releases with the guard. -/
def Call.uses (id : Nat) : Call → Prop
  | .renew used _ => used = id
  | .release used _ => used = id
  | _ => False

/-- What a call can do to the lease and the guards. -/
inductive Took (world : World) (call : Call) : World → Reply → Prop
  | quiet {stealing : List (String × LeaseRecord)} {reply : Reply}
      (hreply : reply = .expired ∨ reply = .idle ∨ ∃ e, reply = .refused e)
      (huses : ∀ id, call.uses id → reply = .refused .conflict ∨
        ∀ held ∈ world.held, held.id ≠ id) :
      Took world call { world with stealing } reply
  | granted {store : LeaseStore} {stealing : List (String × LeaseRecord)} {replicaId : String}
      {guard : LeaseGuard} (hversion : leaseVersion store = some guard.resourceVersion)
      (hbefore : (leaseVersion world.store = none ∧ guard.resourceVersion = 1 ∧
          ∃ replicaId acquiredAtMs nowMs, call = .tryAcquire replicaId acquiredAtMs nowMs) ∨
        ∃ version, leaseVersion world.store = some version ∧ guard.resourceVersion = version + 1 ∧
          ∃ caller acquiredAtMs nowMs, call = .steal caller acquiredAtMs nowMs) :
      Took world call
        { store, stealing, held := ⟨world.issued, replicaId, guard⟩ :: world.held,
          issued := world.issued + 1 }
        (.granted world.issued)
  | renewed {store : LeaseStore} {guard : LeaseGuard} {held : Held} {id : Nat} {nowMs : Int}
      (hcall : call = .renew id nowMs) (hheld : world.held.find? (·.id = id) = some held)
      (hbefore : leaseVersion world.store = some held.guard.resourceVersion)
      (hversion : leaseVersion store = some guard.resourceVersion)
      (hnext : guard.resourceVersion = held.guard.resourceVersion + 1) :
      Took world call
        { world with store, held := world.held.map fun h =>
          if h.id = id then { h with guard } else h } .renewed
  | released {store : LeaseStore} {held : Held} {id : Nat} {rowSeen : Bool}
      (hcall : call = .release id rowSeen)
      (hheld : world.held.find? (·.id = id) = some held)
      (hbefore : leaseVersion world.store = some held.guard.resourceVersion)
        (hversion : leaseVersion store = none) :
      Took world call { world with store, held := world.held.filter (·.id ≠ id) }
      (.released (.ok true))
  | stale {held : Held} {id : Nat} {rowSeen : Bool} (hcall : call = .release id rowSeen)
      (hheld : world.held.find? (·.id = id) = some held)
      (hbefore : leaseVersion world.store ≠ some held.guard.resourceVersion) :
      Took world call { world with held := world.held.filter (·.id ≠ id) }
        (.released (if rowSeen then .error .conflict else .ok false))
  | dropped {id : Nat} {reply : Reply} (hcall : call = .drop id)
      (hreply : reply = .dropped ∨ reply = .idle) :
      Took world call { world with held := world.held.filter (·.id ≠ id) } reply

variable {guards : List Held} {id : Nat}

theorem ne_of_find?_eq_none (h : guards.find? (·.id = id) = none) :
    ∀ held ∈ guards, held.id ≠ id := by
  intro held hmem hid
  exact List.find?_eq_none.mp h held hmem (decide_eq_true hid)

theorem step_took (world : World) (call : Call) :
    Took world call (step world call).1 (step world call).2 := by
  cases call with
  | tryAcquire replicaId acquiredAtMs nowMs =>
    dsimp only [step]
    rcases tryAcquire_cases world.store replicaId acquiredAtMs nowMs
      with ⟨store, guard, h, hnone, hversion, hone⟩ | h
    · rw [h]
      exact .granted (hone ▸ hversion) (.inl ⟨hnone, hone, _, _, _, rfl⟩)
    · rw [h]
      exact .quiet (.inr (.inr ⟨_, rfl⟩)) nofun
  | readExpired replicaId ttlMs currentMs =>
    dsimp only [step]
    cases readExpired world.store ttlMs currentMs with
    | ok record => exact .quiet (.inl rfl) nofun
    | error e => exact .quiet (.inr (.inr ⟨e, rfl⟩)) nofun
  | steal caller acquiredAtMs nowMs =>
    dsimp only [step]
    cases world.stealing[caller]? with
    | none => exact .quiet (.inr (.inl rfl)) nofun
    | some stealing =>
      obtain ⟨replicaId, record⟩ := stealing
      dsimp only [steal]
      by_cases hversion : leaseVersion world.store = some record.resourceVersion
      · obtain ⟨store, guard, h, hafter, hnext⟩ :=
          writeLease_of_eq replicaId acquiredAtMs nowMs hversion
        rw [h]
        exact .granted (hnext ▸ hafter) (.inr ⟨_, hversion, hnext, _, _, _, rfl⟩)
      · rw [writeLease_of_ne replicaId acquiredAtMs nowMs hversion]
        exact .quiet (.inr (.inr ⟨_, rfl⟩)) nofun
  | renew id nowMs =>
    dsimp only [step]
    cases hheld : world.held.find? (·.id = id) with
    | none => exact .quiet (.inr (.inl rfl)) fun used hused => .inr (hused ▸
      ne_of_find?_eq_none hheld)
    | some held =>
      dsimp only [renew]
      by_cases hversion : leaseVersion world.store = some held.guard.resourceVersion
      · obtain ⟨store, guard, h, hafter, hnext⟩ :=
          writeLease_of_eq held.replicaId held.guard.acquiredAtMs nowMs hversion
        rw [h]
        exact .renewed rfl hheld hversion (hnext ▸ hafter) hnext
      · rw [writeLease_of_ne held.replicaId held.guard.acquiredAtMs nowMs hversion]
        exact .quiet (.inr (.inr ⟨_, rfl⟩)) fun _ _ => .inl rfl
  | release id rowSeen =>
    dsimp only [step]
    cases hheld : world.held.find? (·.id = id) with
    | none => exact .quiet (.inr (.inl rfl)) fun used hused => .inr (hused ▸
      ne_of_find?_eq_none hheld)
    | some held =>
      dsimp only
      by_cases hversion : leaseVersion world.store = some held.guard.resourceVersion
      · obtain ⟨store, h, hafter⟩ := release_of_eq rowSeen hversion
        rw [h]
        exact .released rfl hheld hversion hafter
      · rw [release_of_ne rowSeen hversion]
        exact .stale rfl hheld hversion
  | drop id =>
    refine .dropped rfl ?_
    dsimp only [step]
    split
    next => exact .inl rfl
    next => exact .inr rfl

/-! ## Guards -/

/-- The guard can renew the lease or release it. -/
def CanUse (world : World) (id : Nat) : Prop :=
  (∃ nowMs, (step world (.renew id nowMs)).2 = .renewed) ∨
    ∃ rowSeen, (step world (.release id rowSeen)).2 = .released (.ok true)

variable {world : World}

/-- A guard that was used with success matched the lease. -/
theorem Took.used {world' : World} {call : Call} {reply : Reply}
    (htook : Took world call world' reply)
    (huses : call.uses id) (hreply : reply = .renewed ∨ reply = .released (.ok true)) :
    ∃ held, world.held.find? (·.id = id) = some held ∧
      leaseVersion world.store = some held.guard.resourceVersion := by
  cases htook with
  | quiet hquiet => rcases hquiet with rfl | rfl | ⟨e, rfl⟩ <;> simp at hreply
  | granted => simp at hreply
  | renewed hcall hheld hbefore
  | released hcall hheld hbefore =>
    subst hcall
    obtain rfl := huses
    exact ⟨_, hheld, hbefore⟩
  | @stale _ _ rowSeen => cases rowSeen <;> simp at hreply
  | dropped hcall =>
    subst hcall
    cases huses

theorem canUse_iff :
    CanUse world id ↔ ∃ held, world.held.find? (·.id = id) = some held ∧
      leaseVersion world.store = some held.guard.resourceVersion := by
  constructor
  · rintro (⟨nowMs, h⟩ | ⟨rowSeen, h⟩)
    · exact (step_took world (.renew id nowMs)).used rfl (.inl h)
    · exact (step_took world (.release id rowSeen)).used rfl (.inr h)
  · rintro ⟨held, hheld, hversion⟩
    left
    obtain ⟨store, guard, h, -, -⟩ :=
      writeLease_of_eq held.replicaId held.guard.acquiredAtMs 0 hversion
    refine ⟨0, ?_⟩
    dsimp only [step]
    rw [hheld]
    dsimp only [renew]
    rw [h]

/-- The guards of a world, seen from the version of the lease. -/
structure Fenced (world : World) : Prop where
  issued : ∀ held ∈ world.held, held.id < world.issued
  behind : ∀ held ∈ world.held, ∀ version, leaseVersion world.store = some version →
    held.guard.resourceVersion ≤ version
  one : ∀ held ∈ world.held, ∀ held' ∈ world.held,
    leaseVersion world.store = some held.guard.resourceVersion →
    leaseVersion world.store = some held'.guard.resourceVersion → held.id = held'.id

/-- The guard was overtaken: it does not match the lease and never will. -/
structure Overtaken (id : Nat) (world : World) : Prop where
  issued : id < world.issued
  behind : ∀ held ∈ world.held, held.id = id → ∀ version, leaseVersion world.store = some version →
    held.guard.resourceVersion < version

variable {guard : LeaseGuard} {held : Held}

section Step
variable {world world' : World} {call : Call} {reply : Reply} {id : Nat}

/-- A lease is taken anew only when no guard is held. -/
def FreshWhen (world : World) (call : Call) (reply : Reply) : Prop :=
  (∃ replicaId acquiredAtMs nowMs, call = .tryAcquire replicaId acquiredAtMs nowMs) →
    (∃ id, reply = .granted id) → world.held = []

/-- A new guard is ahead of every guard held before it. -/
theorem Fenced.lt_of_granted (h : Fenced world) (hfresh : FreshWhen world call (.granted id))
    {P Q S : Prop} (hbefore : P ∧ Q ∧
      (∃ replicaId acquiredAtMs nowMs, call = .tryAcquire replicaId acquiredAtMs nowMs) ∨
      ∃ version, leaseVersion world.store = some version ∧
        guard.resourceVersion = version + 1 ∧ S) :
    ∀ held ∈ world.held, held.guard.resourceVersion < guard.resourceVersion := by
  intro held hmem
  rcases hbefore with ⟨-, -, hcall⟩ | ⟨version, hversion, hnext, -⟩
  · rw [hfresh hcall ⟨_, rfl⟩] at hmem
    cases hmem
  · have hle := h.behind held hmem version hversion
    omega

/-- A new guard overtakes the guards it is ahead of. -/
theorem overtaken_of_lt {store : LeaseStore} {stealing : List (String × LeaseRecord)}
    {replicaId : String}
    (hissued : id < world.issued) (hversion : leaseVersion store = some guard.resourceVersion)
    (hlt : ∀ held ∈ world.held, held.guard.resourceVersion < guard.resourceVersion) :
    Overtaken id
      { store, stealing, held := ⟨world.issued, replicaId, guard⟩ :: world.held,
        issued := world.issued + 1 } := by
  refine ⟨Nat.lt_succ_of_lt hissued, fun held hmem hid version hafter => ?_⟩
  obtain rfl := Option.mem_unique hversion hafter
  rcases List.mem_cons.mp hmem with rfl | hmem
  · exact absurd hid (Nat.ne_of_gt hissued)
  · exact hlt held hmem

/-- The guards after one of them was renewed. -/
theorem mem_map_renewed (h : held ∈ guards.map fun h => if h.id = id then { h with guard } else h) :
    (held.id = id ∧ held.guard = guard ∧ ∃ old ∈ guards, old.id = id) ∨
      (held.id ≠ id ∧ held ∈ guards) := by
  obtain ⟨old, hold, rfl⟩ := List.mem_map.mp h
  by_cases hid : old.id = id
  · rw [if_pos hid]
    exact .inl ⟨hid, rfl, old, hold, hid⟩
  · rw [if_neg hid]
    exact .inr ⟨hid, hold⟩

theorem Fenced.filter (h : Fenced world) (p : Held → Bool) :
    Fenced { world with held := world.held.filter p } where
  issued held hmem := h.issued held (List.mem_filter.mp hmem).1
  behind held hmem := h.behind held (List.mem_filter.mp hmem).1
  one held hmem held' hmem' :=
    h.one held (List.mem_filter.mp hmem).1 held' (List.mem_filter.mp hmem').1

theorem Fenced.took (h : Fenced world) (htook : Took world call world' reply)
    (hfresh : FreshWhen world call reply) :
    Fenced world' := by
  cases htook with
  | quiet => exact ⟨h.issued, h.behind, h.one⟩
  | @granted store stealing replicaId guard hversion hbefore =>
    have hlt := h.lt_of_granted hfresh hbefore
    have hother : ∀ held ∈ world.held, leaseVersion store ≠ some held.guard.resourceVersion := by
      intro held hmem hsame
      have heq := Option.mem_unique hversion hsame
      have := hlt held hmem
      omega
    refine ⟨List.forall_mem_cons.mpr
      ⟨Nat.lt_succ_self _, fun held hmem => Nat.lt_succ_of_lt (h.issued held hmem)⟩,
      fun held hmem version hafter => ?_, fun held hmem held' hmem' hsame hsame' => ?_⟩
    · obtain rfl := Option.mem_unique hversion hafter
      rcases List.mem_cons.mp hmem with rfl | hmem
      · exact Nat.le_refl _
      · exact Nat.le_of_lt (hlt held hmem)
    · rcases List.mem_cons.mp hmem with rfl | hmem
      · rcases List.mem_cons.mp hmem' with rfl | hmem'
        · rfl
        · exact absurd hsame' (hother held' hmem')
      · exact absurd hsame (hother held hmem)
  | @renewed store guard held id nowMs hcall hheld hbefore hversion hnext =>
    have hlt : ∀ other ∈ world.held, other.guard.resourceVersion < guard.resourceVersion :=
      fun other hmem => by
      have := h.behind other hmem _ hbefore
      omega
    refine ⟨fun other hmem => ?_, fun other hmem version hafter =>
      ?_, fun other hmem other' hmem' hsame hsame' => ?_⟩
    · rcases mem_map_renewed hmem with ⟨hid, -, old, hold, hsame⟩ | ⟨-, hold⟩
      · rw [hid, ← hsame]
        exact h.issued old hold
      · exact h.issued other hold
    · obtain rfl := Option.mem_unique hversion hafter
      rcases mem_map_renewed hmem with ⟨-, hguard, -⟩ | ⟨-, hold⟩
      · exact Nat.le_of_eq (congrArg LeaseGuard.resourceVersion hguard)
      · exact Nat.le_of_lt (hlt other hold)
    · have hid : ∀ {other},
          other ∈ (world.held.map fun h => if h.id = id then { h with guard } else h) →
          leaseVersion store = some other.guard.resourceVersion → other.id = id := by
        intro other hmem hsame
        rcases mem_map_renewed hmem with ⟨hid, -⟩ | ⟨-, hold⟩
        · exact hid
        · have heq := Option.mem_unique hversion hsame
          have := hlt other hold
          omega
      exact (hid hmem hsame).trans (hid hmem' hsame').symm
  | released hcall hheld hbefore hversion =>
    refine ⟨fun held hmem => h.issued held (List.mem_filter.mp hmem).1,
      fun held hmem version hafter => ?_, fun held hmem held' hmem' hsame => ?_⟩
    · rw [hversion] at hafter
      cases hafter
    · rw [hversion] at hsame
      cases hsame
  | stale | dropped => exact h.filter _

theorem Overtaken.took (h : Overtaken id world) (hfenced : Fenced world)
    (htook : Took world call world' reply)
    (hfresh : FreshWhen world call reply) : Overtaken id world' := by
  cases htook with
  | quiet => exact ⟨h.issued, h.behind⟩
  | granted hversion hbefore =>
    exact overtaken_of_lt h.issued hversion (hfenced.lt_of_granted hfresh hbefore)
  | @renewed store guard held renewedId nowMs hcall hheld hbefore hversion hnext =>
    obtain ⟨hmem, hfound⟩ := of_find?_eq_some hheld
    refine ⟨h.issued, fun other hother hid version hafter => ?_⟩
    obtain rfl := Option.mem_unique hversion hafter
    rcases mem_map_renewed hother with ⟨hsame, -⟩ | ⟨-, hold⟩
    · -- an overtaken guard is not the one renewed
      have := h.behind held hmem (hfound.trans (hsame.symm.trans hid)) _ hbefore
      omega
    · have := h.behind other hold hid _ hbefore
      omega
  | released hcall hheld hbefore hversion =>
    refine ⟨h.issued, fun held hmem hid version hafter => ?_⟩
    rw [hversion] at hafter
    cases hafter
  | stale | dropped => exact ⟨h.issued, fun held hmem => h.behind held (List.mem_filter.mp hmem).1⟩

end Step

/-! ## Runs -/

/-- The world after some calls. -/
def worldAfter (calls : List Call) : World := Run.after step .initial calls

def events (calls : List Call) : List (Event World Call Reply) := Run.trace step .initial calls

structure RunSafe (calls : List Call) : Prop where
  /-- At any time, at most one guard can renew or release. -/
  one : ∀ pre, pre <+: calls → ∀ id id', CanUse (worldAfter pre) id →
    CanUse (worldAfter pre) id' → id = id'
  /-- Once the lease was acquired or stolen, the guards held before are refused, or told
  that there is no lease, and the stored lease stays as it is. -/
  fenced : (events calls).Pairwise fun e e' => ∀ granted id, e.outcome = .granted granted →
    (∃ held ∈ e.before.held, held.id = id) → e'.call.uses id →
    (∃ held ∈ e'.before.held, held.id = id) →
      (e'.outcome = .refused .conflict ∨ e'.outcome = .released (.error .conflict) ∨
        e'.outcome = .released (.ok false)) ∧ e'.after.store = e'.before.store

/-- Every time the lease is acquired, no guard is held. -/
def AcquiredFree (calls : List Call) : Prop :=
  ∀ e ∈ events calls, FreshWhen e.before e.call e.outcome

variable {calls : List Call}

theorem took_of_mem_events {e : Event World Call Reply} (h : e ∈ events calls) :
    Took e.before e.call e.after e.outcome :=
  (Run.of_mem_trace h (step_took _ _)).2

theorem fenced_of_acquiredFree (h : AcquiredFree calls) :
    (∀ e ∈ events calls, Fenced e.before ∧ Fenced e.after) ∧ Fenced (worldAfter calls) :=
  Run.trace_invariant ⟨nofun, nofun, nofun⟩ fun e he hbefore =>
    hbefore.took (took_of_mem_events he) (h e he)

variable {world' : World} {call : Call} {granted : Nat}

/-- A grant overtakes every guard held before it. -/
theorem overtaken_of_granted (hfenced : Fenced world)
    (htook : Took world call world' (.granted granted))
    (hfresh : FreshWhen world call (.granted granted))
    (hheld : ∃ held ∈ world.held, held.id = id) : Overtaken id world' := by
  obtain ⟨held, hmem, rfl⟩ := hheld
  cases htook with
  | quiet hreply => rcases hreply with h | h | ⟨e, h⟩ <;> cases h
  | granted hversion hbefore =>
    exact overtaken_of_lt (hfenced.issued held hmem) hversion (hfenced.lt_of_granted hfresh hbefore)
  | dropped _ hreply => rcases hreply with h | h <;> cases h

variable {reply : Reply}

/-- An overtaken guard is refused. -/
theorem Overtaken.refused (h : Overtaken id world)
    (htook : Took world call world' reply) (huses : call.uses id)
    (hheld : ∃ held ∈ world.held, held.id = id) :
    (reply = .refused .conflict ∨ reply = .released (.error .conflict) ∨
      reply = .released (.ok false)) ∧ world'.store = world.store := by
  obtain ⟨held, hmem, hid⟩ := hheld
  have hbehind : ∀ {held : Held}, world.held.find? (·.id = id) = some held →
      leaseVersion world.store ≠ some held.guard.resourceVersion := by
    intro held hfound hversion
    obtain ⟨hmem, hsame⟩ := of_find?_eq_some hfound
    exact Nat.lt_irrefl _ (h.behind held hmem hsame _ hversion)
  cases htook with
  | quiet hreply hquiet =>
    rcases hquiet id huses with hconflict | hnone
    · exact ⟨.inl hconflict, rfl⟩
    · exact absurd hid (hnone held hmem)
  | granted hversion hbefore =>
    rcases hbefore with ⟨-, -, _, _, _, rfl⟩ | ⟨-, -, -, _, _, _, rfl⟩ <;> cases huses
  | renewed hcall hheld hbefore
  | released hcall hheld hbefore =>
    subst hcall
    obtain rfl := huses
    exact absurd hbefore (hbehind hheld)
  | @stale _ _ rowSeen =>
    cases rowSeen
    · exact ⟨.inr (.inr rfl), rfl⟩
    · exact ⟨.inr (.inl rfl), rfl⟩
  | dropped hcall =>
    subst hcall
    cases huses

theorem acquiredFree_mono {pre : List Call} (h : AcquiredFree calls) (hpre : pre <+: calls) :
    AcquiredFree pre := by
  obtain ⟨post, rfl⟩ := hpre
  intro e he
  refine h e ?_
  unfold events
  rw [Run.trace_append]
  exact List.mem_append_left _ he

theorem runSafe_of_acquiredFree (h : AcquiredFree calls) : RunSafe calls where
  one pre hpre id id' hid hid' := by
    have hfenced := (fenced_of_acquiredFree (acquiredFree_mono h hpre)).2
    obtain ⟨held, hfound, hversion⟩ := canUse_iff.mp hid
    obtain ⟨held', hfound', hversion'⟩ := canUse_iff.mp hid'
    obtain ⟨hmem, rfl⟩ := of_find?_eq_some hfound
    obtain ⟨hmem', rfl⟩ := of_find?_eq_some hfound'
    exact hfenced.one held hmem held' hmem' hversion hversion'
  fenced := by
    have hall := (fenced_of_acquiredFree h).1
    have hpairs : (events calls).Pairwise fun e e' => ∀ granted id, e.outcome = .granted granted →
        (∃ held ∈ e.before.held, held.id = id) → Overtaken id e'.before := by
      refine Run.pairwise_of_invariant (I := fun (e : Event World Call Reply) (world : World) =>
        ∀ granted id, e.outcome = .granted granted →
        (∃ held ∈ e.before.held, held.id = id) → Overtaken id world) ?_ ?_
      · intro e he granted id hgranted hheld
        have htook := took_of_mem_events he
        have hfresh := h e he
        rw [hgranted] at htook hfresh
        exact overtaken_of_granted (hall e he).1 htook hfresh hheld
      · intro e he e' he' hbefore granted id hgranted hheld
        exact (hbefore granted id hgranted hheld).took (hall e' he').1
          (took_of_mem_events he') (h e' he')
    exact hpairs.imp_of_mem fun he he' hovertaken granted id hgranted hheld huses hheld' =>
      (hovertaken granted id hgranted hheld).refused (took_of_mem_events he') huses hheld'

/-! ## A guard from before the row was deleted -/

/-- Guards are numbered in the order they were handed out, and versions from one. -/
def Numbered (world : World) : Prop :=
  ∀ held ∈ world.held, held.id < world.issued ∧ 1 ≤ held.guard.resourceVersion

theorem Numbered.took (h : Numbered world)
    (htook : Took world call world' reply) : Numbered world' := by
  cases htook with
  | quiet => exact h
  | granted hversion hbefore =>
    refine List.forall_mem_cons.mpr ⟨⟨Nat.lt_succ_self _, ?_⟩, fun held hmem => ?_⟩
    · rcases hbefore with ⟨-, hone, -⟩ | ⟨version, -, hnext, -⟩ <;> dsimp only <;> omega
    · exact ⟨Nat.lt_succ_of_lt (h held hmem).1, (h held hmem).2⟩
  | renewed hcall hheld hbefore hversion hnext =>
    intro held hmem
    rcases mem_map_renewed hmem with ⟨hid, hguard, old, hold, hsame⟩ | ⟨-, hold⟩
    · refine ⟨?_, by rw [hguard]; omega⟩
      rw [hid, ← hsame]
      exact (h old hold).1
    · exact h held hold
  | released | stale | dropped => exact fun held hmem => h held (List.mem_filter.mp hmem).1

theorem numbered_worldAfter (calls : List Call) : Numbered (worldAfter calls) := by
  have hinitial : Numbered .initial := List.forall_mem_nil _
  exact (Run.trace_invariant hinitial fun _ he hbefore => hbefore.took (took_of_mem_events he)).2

/-- Two guards are held, one that matches the lease at a version and one of an earlier row. -/
structure Racing (id version : Nat) (other : Held) (world : World) : Prop where
  current : ∃ held, world.held.find? (·.id = id) = some held ∧ held.guard.resourceVersion = version
  version_eq : leaseVersion world.store = some version
  other_held : world.held.find? (·.id = other.id) = some other
  distinct : other.id ≠ id

theorem find?_map_renewed {used : Nat} :
    (guards.map fun h => if h.id = used then { h with guard } else h).find? (·.id = id) =
      (guards.find? (·.id = id)).map fun h => if h.id = used then { h with guard } else h := by
  rw [List.find?_map]
  congr 1
  refine congrArg (List.find? · guards) (funext fun h => ?_)
  dsimp only [Function.comp]
  split <;> rfl

variable {other : Held}

theorem Racing.renew (h : Racing id version other world)
    (nowMs : Int) : Racing id (version + 1) other (step world (.renew id nowMs)).1 := by
  obtain ⟨held, hheld, hmatches⟩ := h.current
  have hid := (of_find?_eq_some hheld).2
  obtain ⟨store, guard, hwrite, hafter, hnext⟩ :=
    writeLease_of_eq held.replicaId held.guard.acquiredAtMs nowMs (hmatches ▸ h.version_eq)
  have hstep : (step world (.renew id nowMs)).1 =
      { world with store, held := world.held.map fun h =>
        if h.id = id then { h with guard } else h } := by
    dsimp only [step]
    rw [hheld]
    dsimp only [Lease.renew]
    rw [hwrite]
  rw [hstep]
  refine ⟨⟨{ held with guard }, ?_, hmatches ▸ hnext⟩, hmatches ▸ hafter, ?_, h.distinct⟩
  · rw [find?_map_renewed, hheld, Option.map_some, if_pos hid]
  · rw [find?_map_renewed, h.other_held, Option.map_some, if_neg h.distinct]

theorem Racing.renewals (h : Racing id version other world)
    (nowMs : Int) (n : Nat) :
    Racing id (version + n) other (Run.after step world (List.replicate n (.renew id nowMs))) := by
  induction n generalizing version world with
  | zero => exact h
  | succ n ih =>
    have hnext := ih (h.renew nowMs)
    rwa [Nat.add_assoc, Nat.add_comm 1 n] at hnext

/-- A lease taken anew while a guard is held: the two guards race. -/
theorem racing_of_acquired (hnumbered : Numbered world)
    (htook : Took world call world' (.granted granted))
    (hcall : ∃ replicaId acquiredAtMs nowMs, call = .tryAcquire replicaId acquiredAtMs nowMs)
    (hheld : world.held.find? (·.id = held.id) = some held) : ∃ id, Racing id 1 held world' := by
  cases htook with
  | quiet hreply => rcases hreply with h | h | ⟨e, h⟩ <;> cases h
  | @granted store stealing replicaId guard hversion hbefore =>
    have hone : guard.resourceVersion = 1 := by
      rcases hbefore with ⟨-, hone, -⟩ | ⟨-, -, -, _, _, _, hsteal⟩
      · exact hone
      · obtain ⟨_, _, _, hacquire⟩ := hcall
        rw [hacquire] at hsteal
        cases hsteal
    have hne : held.id ≠ world.issued :=
      Nat.ne_of_lt (hnumbered held (List.mem_of_find?_eq_some hheld)).1
    refine ⟨world.issued, ⟨⟨world.issued, replicaId, guard⟩, ?_, hone⟩, hone ▸ hversion, ?_, hne⟩
    · exact List.find?_cons_of_pos (by simp)
    · rw [List.find?_cons_of_neg (by simpa using hne.symm)]
      exact hheld
  | dropped _ hreply => rcases hreply with h | h <;> cases h

/-- However often any guard is renewed after any part of a run, at most one guard can be used and
older ones are fenced off, exactly if the lease is only ever acquired while no guard is held. -/
theorem robust_iff (calls : List Call) :
    (∀ pre, pre <+: calls → ∀ id nowMs n, RunSafe (pre ++ List.replicate n (.renew id nowMs))) ↔
      AcquiredFree calls := by
  constructor
  · intro hrobust e he hcall hgranted
    obtain ⟨granted, hgranted⟩ := hgranted
    by_contra hne
    obtain ⟨first, rest, hheld⟩ := List.exists_cons_of_ne_nil hne
    obtain ⟨pre, post, rfl, hbefore, hstep⟩ := Run.mem_trace he
    have hnumbered : Numbered e.before := hbefore ▸ numbered_worldAfter pre
    have hfound : e.before.held.find? (·.id = first.id) = some first := by
      rw [hheld]
      exact List.find?_cons_of_pos (by simp)
    have htook := took_of_mem_events he
    rw [hgranted] at htook
    obtain ⟨id, hracing⟩ := racing_of_acquired hnumbered htook hcall hfound
    have hversion : 1 + (first.guard.resourceVersion - 1) = first.guard.resourceVersion := by
      have := (hnumbered first (List.mem_of_find?_eq_some hfound)).2
      omega
    -- the new holder renews until the version of the old guard is reached
    have hend := hracing.renewals 0 (first.guard.resourceVersion - 1)
    have hsafe := hrobust (pre ++ [e.call]) ⟨post, by simp⟩ id 0 (first.guard.resourceVersion - 1)
    have hworld : worldAfter
        (pre ++ [e.call] ++ List.replicate (first.guard.resourceVersion - 1) (.renew id 0)) =
        Run.after step e.after
          (List.replicate (first.guard.resourceVersion - 1) (.renew id 0)) := by
      unfold worldAfter
      rw [Run.after_append, Run.after_append, ← hbefore, Run.after, hstep]
      rfl
    have huse : CanUse _ first.id :=
      canUse_iff.mpr ⟨first, hend.other_held, hend.version_eq.trans (congrArg some hversion)⟩
    obtain ⟨held, hcurrent, hmatches⟩ := hend.current
    have huse' : CanUse _ id := canUse_iff.mpr ⟨held, hcurrent, hmatches ▸ hend.version_eq⟩
    rw [← hworld] at huse huse'
    exact hracing.distinct (hsafe.one _ List.prefix_rfl _ _ huse huse')
  · intro hfree pre hpre id nowMs n
    refine runSafe_of_acquiredFree fun e he hcall => ?_
    unfold events at he
    rw [Run.trace_append] at he
    rcases List.mem_append.mp he with he | he
    · exact acquiredFree_mono hfree hpre e he hcall
    · obtain ⟨before, after, hsplit, -, -⟩ := Run.mem_trace he
      have hmem : e.call ∈ List.replicate n (Call.renew id nowMs) := by
        rw [hsplit]
        exact List.mem_append_right _ List.mem_cons_self
      obtain ⟨_, _, _, hacquire⟩ := hcall
      rw [List.eq_of_mem_replicate hmem] at hacquire
      cases hacquire

/-- The lease is stolen from `a`, released by the thief and acquired by `c`; `a` still has
its guard of version one. -/
def staleGuardRun : List Call :=
  [.tryAcquire "a" 0 0, .readExpired "b" 30000 30000, .steal 0 30000 30000, .release 1 false,
    .tryAcquire "c" 30001 30001]

theorem not_runSafe_staleGuard : ¬ RunSafe staleGuardRun := by
  intro hsafe
  have hstale : CanUse (worldAfter staleGuardRun) 0 := .inl ⟨0, rfl⟩
  have hcurrent : CanUse (worldAfter staleGuardRun) 2 := .inl ⟨0, rfl⟩
  exact absurd (hsafe.one _ List.prefix_rfl _ _ hstale hcurrent) (by decide)

end OpenShell.Server.Lease
