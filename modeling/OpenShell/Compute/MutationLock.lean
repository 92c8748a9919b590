import OpenShell.Util.WeakTable

/-!
# Mutation locks

`persistence/mutation_lock.rs` and `compute/mutation_guard.rs`: the keys a guarded
mutation locks, and the local tables that give each key its lock. A replica runs
any number of tasks. Each looks a lock up, queues for it and is handed it in steps
of its own, and is cancelled at any of them; the names hash to keys in any way.
-/

namespace OpenShell.Compute

inductive LockMode
  | shared
  | exclusive
  deriving DecidableEq

/-- `max`: the stronger of two modes. -/
def LockMode.max : LockMode → LockMode → LockMode
  | .shared, .shared => .shared
  | _, _ => .exclusive

inductive MutationLockKey
  | global
  | workspace (name : String)
  | sandbox (sandboxId : String)

def globalMutationLockKey : Int64 := 0x4f50454e53484c4c

def sshIdentityLockKey : Int64 := 0x4f535348484f5354

def timePayloadMigrationLockKey : Int64 := 3052

/-- Keep derived keys off the keys with a fixed use. -/
def avoidReserved (key : Int64) : Int64 :=
  if key = globalMutationLockKey ∨ key = sshIdentityLockKey ∨ key = timePayloadMigrationLockKey
    then key ^^^ 1
  else key

/-- `digest kind value` is the first 8 bytes of the hash of a name. -/
def MutationLockKey.advisoryKey (digest : String → String → Int64) : MutationLockKey → Int64
  | .global => globalMutationLockKey
  | .workspace name => avoidReserved (digest "workspace" name)
  | .sandbox sandboxId => avoidReserved (digest "sandbox" sandboxId)

/-! ## Lock sets -/

/-- `entry(key).and_modify(max).or_insert(mode)` of a sorted map. -/
def insertEntry (key : Int64) (mode : LockMode) : List (Int64 × LockMode) → List (Int64 × LockMode)
  | [] => [(key, mode)]
  | (k, m) :: rest =>
    if key < k then (key, mode) :: (k, m) :: rest
    else if key = k then (k, m.max mode) :: rest
    else (k, m) :: insertEntry key mode rest

theorem key_of_mem_insertEntry {key : Int64} {mode : LockMode} :
    ∀ {entries : List (Int64 × LockMode)} {e : Int64 × LockMode}, e ∈ insertEntry key mode entries →
      e.1 = key ∨ ∃ e' ∈ entries, e'.1 = e.1
  | [], e, h => .inl (by rw [List.mem_singleton.mp h])
  | (k, m) :: rest, e, h => by
    unfold insertEntry at h
    split at h
    next =>
      rcases List.mem_cons.mp h with rfl | h
      · exact .inl rfl
      · exact .inr ⟨e, h, rfl⟩
    next =>
      split at h
      next =>
        rcases List.mem_cons.mp h with rfl | h
        · exact .inr ⟨(k, m), List.mem_cons_self, rfl⟩
        · exact .inr ⟨e, List.mem_cons_of_mem _ h, rfl⟩
      next =>
        rcases List.mem_cons.mp h with rfl | h
        · exact .inr ⟨(k, m), List.mem_cons_self, rfl⟩
        · rcases key_of_mem_insertEntry h with hkey | ⟨e', he', hkey⟩
          · exact .inl hkey
          · exact .inr ⟨e', List.mem_cons_of_mem _ he', hkey⟩

theorem insertEntry_sorted {key : Int64} {mode : LockMode} :
    ∀ {entries : List (Int64 × LockMode)}, entries.Pairwise (·.1 < ·.1) →
      (insertEntry key mode entries).Pairwise (·.1 < ·.1)
  | [], _ => List.pairwise_singleton ..
  | (k, m) :: rest, h => by
    obtain ⟨hhead, hrest⟩ := List.pairwise_cons.mp h
    unfold insertEntry
    split
    next hlt =>
      exact List.pairwise_cons.mpr
        ⟨List.forall_mem_cons.mpr ⟨hlt, fun e he => Int64.lt_trans hlt (hhead e he)⟩, h⟩
    next hge =>
      split
      next => exact List.pairwise_cons.mpr ⟨hhead, hrest⟩
      next hne =>
        refine List.pairwise_cons.mpr ⟨fun e he => ?_, insertEntry_sorted hrest⟩
        rcases key_of_mem_insertEntry he with hkey | ⟨e', he', hkey⟩
        · rw [hkey]
          exact Int64.lt_of_le_of_ne (Int64.not_lt.mp hge) fun heq => hne heq.symm
        · exact hkey ▸ hhead e' he'

/-- The keys one mutation holds, each in its strongest requested mode. -/
structure MutationLockSet where
  entries : List (Int64 × LockMode)
  sorted : entries.Pairwise (·.1 < ·.1)

namespace MutationLockSet

def empty : MutationLockSet := ⟨[], .nil⟩

variable (digest : String → String → Int64)

def insert (set : MutationLockSet) (key : MutationLockKey) (mode : LockMode) : MutationLockSet :=
  ⟨insertEntry (key.advisoryKey digest) mode set.entries, insertEntry_sorted set.sorted⟩

/-- The local locks of a lifecycle, watch or reconcile path. -/
def sandboxLifecycle (sandboxId : String) : MutationLockSet :=
  (empty.insert digest .global .shared).insert digest (.sandbox sandboxId) .exclusive

end MutationLockSet

def defaultWorkspaceName : String := "default"

def sandboxWorkspaceKey (workspace : String) : String :=
  if workspace.isEmpty then defaultWorkspaceName else workspace

inductive MutationScope
  | global
  | workspace (name : String)
  | sandbox (workspace sandboxId : String)

def MutationScope.lockSet (digest : String → String → Int64) : MutationScope → MutationLockSet
  | .global => MutationLockSet.empty.insert digest .global .exclusive
  | .workspace name =>
    if name.isEmpty then MutationLockSet.empty.insert digest .global .exclusive
    else (MutationLockSet.empty.insert digest .global .shared).insert digest
      (.workspace name) .exclusive
  | .sandbox name sandboxId =>
    ((MutationLockSet.empty.insert digest .global .shared).insert digest
      (.workspace (sandboxWorkspaceKey name)) .shared).insert digest (.sandbox sandboxId) .exclusive

/-- What a local guard is taken for: a mutation, or the lifecycle of a sandbox. -/
inductive GuardScope
  | mutation (scope : MutationScope)
  | lifecycle (sandboxId : String)

def GuardScope.lockSet (digest : String → String → Int64) : GuardScope → MutationLockSet
  | .mutation scope => scope.lockSet digest
  | .lifecycle sandboxId => MutationLockSet.sandboxLifecycle digest sandboxId

/-! ## Lock tables -/

def lockTableMinSweepLen : Nat := 64

/-- `LocalMutationLocks`. -/
structure LockTable where
  entries : WeakTable Int64
  sweepAbove : Nat

/-- `LocalMutationLocks::lock_for`; a new lock is called `fresh`. -/
def LockTable.lockFor (table : LockTable) (live : Int64 → Nat → Bool) (key : Int64) (fresh : Nat) :
    LockTable × Nat :=
  match table.entries.upgrade live key with
  | some lock => (table, lock)
  | none =>
    let replaced := table.entries.get key
    let entries := table.entries.insert key fresh
    if replaced.isNone ∧ table.sweepAbove < entries.entries.length then
      -- the new lock is referred to by its caller
      let entries := entries.retain fun k lock => live k lock || (k = key && lock = fresh)
      (⟨entries, max (2 * entries.entries.length) lockTableMinSweepLen⟩, fresh)
    else ({ table with entries }, fresh)

/-- `LifecycleGateRegistry::gate_for`. -/
def gateFor (gates : WeakTable String) (live : String → Nat → Bool) (sandboxId : String)
    (fresh : Nat) :
    WeakTable String × Nat :=
  let gates := gates.retain live
  match gates.upgrade live sandboxId with
  | some gate => (gates, gate)
  | none => (gates.insert sandboxId fresh, fresh)

/-! ## Tasks -/

/-- What a lock is for: the lifecycle gate of a sandbox, or a key. -/
inductive Resource
  | gate (sandboxId : String)
  | key (key : Int64)
  deriving DecidableEq

/-- How far a reference to a lock has come. -/
inductive Stage
  /-- Looked up; the future of the lock was not polled yet. -/
  | found
  | queued
  | held
  deriving DecidableEq

/-- A reference of a task to a lock, in the order the locks were queued for. -/
structure Claim where
  resource : Resource
  lock : Nat
  task : Nat
  mode : LockMode
  stage : Stage
  deriving DecidableEq

inductive Phase
  | idle
  /-- Waits for a lifecycle gate. -/
  | gating
  /-- In `acquire`, before the next key of its set. -/
  | acquiring (scope : GuardScope) (rest : List (Int64 × LockMode))
  /-- In `acquire`, at the await of a key. -/
  | waiting (scope : GuardScope) (key : Int64) (mode : LockMode) (rest : List (Int64 × LockMode))
  | holding (scope : GuardScope)
  /-- The guard or the future of `acquire` is dropped, one key after the other. -/
  | dropping

structure World where
  gates : WeakTable String
  keys : LockTable
  /-- The locks made so far. -/
  made : Nat
  claims : List Claim
  phase : Nat → Phase

def World.initial : World :=
  { gates := .empty, keys := ⟨.empty, lockTableMinSweepLen⟩, made := 0, claims := [],
    phase := fun _ => .idle }

/-- Whether the strong count of a lock is not zero. -/
def live (claims : List Claim) (resource : Resource) (lock : Nat) : Bool :=
  claims.any fun claim => claim.resource = resource ∧ claim.lock = lock

/-- A request and a held claim of one lock exclude each other unless both are shared. -/
def admits (claims : List Claim) (request : Claim) : Bool :=
  claims.all fun claim =>
    ¬ (claim.resource = request.resource ∧ claim.lock = request.lock ∧ claim.stage = .held) ∨
      (claim.mode = .shared ∧ request.mode = .shared)

inductive Call
  /-- `lifecycle_gates.lock_for`. -/
  | waitGate (task : Nat) (sandboxId : String)
  /-- `lifecycle_gates.try_lock_for`. -/
  | tryGate (task : Nat) (sandboxId : String)
  | dropGate (task : Nat) (sandboxId : String)
  /-- `acquire` starts. -/
  | acquire (task : Nat) (scope : GuardScope)
  /-- The next key of `acquire` is looked up, or `acquire` returns. -/
  | next (task : Nat)
  /-- The future of a lock is polled for the first time. -/
  | poll (task : Nat)
  /-- A lock is handed to the first request queued for it. -/
  | grant (resource : Resource) (lock : Nat)
  /-- The task goes on with the lock it was handed. -/
  | resume (task : Nat)
  /-- The future a task is in is dropped. -/
  | cancel (task : Nat)
  | dropGuard (task : Nat)
  /-- One key of a dropped guard is released. -/
  | release (task : Nat) (key : Int64)
  | released (task : Nat)

def World.setPhase (world : World) (task : Nat) (phase : Phase) : World :=
  { world with phase := fun t => if t = task then phase else world.phase t }

def Resource.isGate : Resource → Bool
  | .gate _ => true
  | .key _ => false

section Steps
variable (digest : String → String → Int64) (world : World)

/-- `gate_for`, with the caller's reference to the gate. -/
def lookUpGate (task : Nat) (sandboxId : String) : World :=
  let (gates, lock) :=
    gateFor world.gates (fun id => live world.claims (.gate id)) sandboxId world.made
  { world with
    gates
    made := world.made + 1
    claims := world.claims ++ [⟨.gate sandboxId, lock, task, .exclusive, .found⟩] }

/-- `gate_for` and `try_lock_owned`: the gate is taken if nobody holds it or is queued for it. -/
def tryGate (task : Nat) (sandboxId : String) : World :=
  let (gates, lock) :=
    gateFor world.gates (fun id => live world.claims (.gate id)) sandboxId world.made
  let busy := world.claims.any fun claim =>
    claim.resource = .gate sandboxId ∧ claim.lock = lock ∧ claim.stage ≠ .found
  { world with
    gates
    made := world.made + 1
    claims := if busy then world.claims else world.claims ++
      [⟨.gate sandboxId, lock, task, .exclusive, .held⟩] }

/-- `lock_for`, with the caller's reference to the lock. -/
def lookUpKey (task : Nat) (key : Int64) (mode : LockMode) : World :=
  let (keys, lock) := world.keys.lockFor (fun k => live world.claims (.key k)) key world.made
  { world with
    keys
    made := world.made + 1
    claims := world.claims ++ [⟨.key key, lock, task, mode, .found⟩] }

/-- The first poll of a lock's future queues its request. -/
def queue (task : Nat) : World :=
  match world.claims.find? fun claim => claim.task = task ∧ claim.stage = .found with
  | some claim =>
    { world with claims := world.claims.filter (· ≠ claim) ++ [{ claim with stage := .queued }] }
  | none => world

/-- The request at the head of a lock's queue gets the lock if it can be held with the others. -/
def handOver (resource : Resource) (lock : Nat) : World :=
  match world.claims.find? fun claim => claim.resource = resource ∧ claim.lock = lock ∧
    claim.stage = .queued with
  | some request =>
    if admits world.claims request then
      { world with
        claims := world.claims.map fun claim =>
          if claim = request then { claim with stage := .held } else claim }
    else world
  | none => world

/-- Drop references of a task. -/
def dropClaims (drop : Claim → Bool) : World :=
  { world with claims := world.claims.filter fun claim => !drop claim }

def step : Call → World
  | .waitGate task sandboxId =>
    match world.phase task with
    | .idle =>
      -- a gate is waited for with nothing held
      if world.claims.all (·.task ≠ task) then
        (lookUpGate world task sandboxId).setPhase task .gating
      else world
    | _ => world
  | .tryGate task sandboxId =>
    match world.phase task with
    | .idle | .holding _ => tryGate world task sandboxId
    | _ => world
  | .dropGate task sandboxId =>
    match world.phase task with
    | .gating => world
    | _ => dropClaims world fun claim => claim.task = task ∧ claim.resource = .gate sandboxId
  | .acquire task scope =>
    match world.phase task with
    | .idle => world.setPhase task (.acquiring scope (scope.lockSet digest).entries)
    | _ => world
  | .next task =>
    match world.phase task with
    | .acquiring scope ((key, mode) :: rest) =>
      (lookUpKey world task key mode).setPhase task (.waiting scope key mode rest)
    | .acquiring scope [] => world.setPhase task (.holding scope)
    | _ => world
  | .poll task => queue world task
  | .grant resource lock => handOver world resource lock
  | .resume task =>
    match world.phase task with
    | .gating =>
      if world.claims.any fun claim => claim.task = task ∧ claim.stage = .held then
        world.setPhase task .idle
      else world
    | .waiting scope key _ rest =>
      if world.claims.any fun claim => claim.task = task ∧ claim.resource = .key key ∧
        claim.stage = .held then
        world.setPhase task (.acquiring scope rest)
      else world
    | _ => world
  | .cancel task =>
    match world.phase task with
    | .gating => (dropClaims world (·.task = task)).setPhase task .idle
    | .acquiring .. | .waiting .. =>
      (dropClaims world fun claim => claim.task = task ∧ claim.stage ≠ .held).setPhase
        task .dropping
    | _ => world
  | .dropGuard task =>
    match world.phase task with
    | .holding _ => world.setPhase task .dropping
    | _ => world
  | .release task key =>
    match world.phase task with
    | .dropping => dropClaims world fun claim => claim.task = task ∧ claim.resource = .key key
    | _ => world
  | .released task =>
    match world.phase task with
    | .dropping =>
      if world.claims.all fun claim => claim.task ≠ task ∨
        claim.resource.isGate then world.setPhase task .idle
      else world
    | _ => world

def worldAfter (calls : List Call) : World := calls.foldl (step digest) .initial

end Steps

end OpenShell.Compute
