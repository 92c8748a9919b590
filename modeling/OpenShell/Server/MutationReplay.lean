import Mathlib
import OpenShell.Persistence.Objects
import OpenShell.Util.Run

/-!
# Admission of mutations

`grpc/mutation_replay.rs`: a mutation with a request id is executed only by the
call that creates the claim row of its key. Any number of calls on any number of
replicas run `execute_owned` at once; each call of the store is one step, other
tasks act in between, and a task may die at any point. A write may fail with or
without having taken effect.
-/

namespace OpenShell.Server.MutationReplay

open Persistence (Objects ObjectRecord)

/-- `24 * 60 * 60 * 1000`. -/
def successTtlMs : Int := 24 * 60 * 60 * 1000

def maxAdmissionsPerCaller : Nat := 1000

structure Protection where
  keyId : String
  effectivePayloadHash : String
  effectiveWorkspaceId : Option String
  effectiveTargetId : Option String
  deriving DecidableEq

/-- What a call is bound to: the fingerprint of its payload and what it resolved to. -/
@[ext] structure Fingerprint where
  payloadHash : String
  protection : Option Protection
  workspaceId : Option String
  targetId : Option String
  deriving DecidableEq

structure Admission (S : Type) where
  formatVersion : Nat
  fingerprint : Fingerprint
  success : Option S
  completedAtMs : Option Int

/-- `i64::saturating_add` of the time to live. -/
def expiryMs (completedAtMs : Int) : Int := min (completedAtMs + successTtlMs) (2 ^ 63 - 1)

/-- The record of a success that may be removed. -/
def Admission.isExpired {S : Type} (admission : Admission S) (nowMs : Int) : Bool :=
  admission.success.isSome && admission.completedAtMs.any fun completed =>
    expiryMs completed ≤ nowMs

/-- Where a call of `execute_owned` stands. A number counts the attempts left after this one. -/
inductive Phase (S : Type)
  /-- About to look its key up. -/
  | looking (attempts : Nat)
  /-- About to remove the expired row it found, at the time it read. -/
  | removing (attempts : Nat) (row : ObjectRecord (Admission S)) (clockMs : Int)
  | creating (attempts : Nat)
  /-- In `prune_expired`, about to list the rows of the caller. -/
  | listing (attempts : Nat)
  | pruning (attempts : Nat) (rows : List (ObjectRecord (Admission S))) (removed : Bool)
  /-- In `M::execute`, as the owner of a claim. -/
  | executing (claimId : String)
  | completing (claimId : String)
  /-- A deferred mutation returned; the producer of its stream holds the completion. -/
  | streaming (claimId : String)
  | returned

structure Task (S : Type) where
  bucket : String
  key : String
  fingerprint : Fingerprint
  deferred : Bool
  phase : Phase S

/-- The row payload the task creates its claim with. -/
def Task.admission {S : Type} (task : Task S) : Admission S := ⟨1, task.fingerprint, none, none⟩

structure World (S : Type) where
  store : Objects (Admission S)
  tasks : List (Task S)
  /-- The ids generated for claims so far. -/
  claims : List String

def World.initial {S : Type} : World S := ⟨.empty, [], []⟩

/-- How a write of the store ends. -/
inductive Fault
  | none
  /-- An error is reported and the write did not take effect. -/
  | lost
  /-- An error is reported and the write took effect. -/
  | hidden
  deriving DecidableEq

inductive Call (S : Type)
  | start (bucket key : String) (fingerprint : Fingerprint) (deferred : Bool)
  /-- `get_by_name` and the decision on the row found; `restored` is whether `M::restore`
  succeeds. -/
  | look (task : Nat) (nowMs : Int) (restored : Bool)
  | remove (task : Nat) (fault : Fault)
  | create (task : Nat) (claimId : String) (nowMs : Int) (fault : Fault)
  | list (task : Nat)
  /-- The next row of `prune_expired`. -/
  | prune (task : Nat) (nowMs : Int) (fault : Fault)
  /-- `M::execute` returns. -/
  | executed (task : Nat) (ok : Bool)
  /-- `Completion::complete`; `tooLarge` is whether the payload exceeds its limit. -/
  | complete (task : Nat) (success : S) (completedAtMs nowMs : Int) (tooLarge : Bool)
      (fault : Fault)
  /-- The task fails, panics or is cancelled where it stands. -/
  | stop (task : Nat)

inductive Reply (S : Type)
  | quiet
  /-- `M::execute` starts. -/
  | executes (claimId : String)
  | replayed (success : S)
  /-- A row was removed by a task that had read this time. -/
  | removed (claimId : String) (clockMs : Int)
  /-- A success was recorded. -/
  | recorded (claimId : String)

section Steps
variable {S : Type}

/-- `continue`: the next attempt, if there is one left. -/
def retry : Nat → Phase S
  | 0 => .returned
  | attempts + 1 => .looking attempts

/-- The decision of `execute_owned` on the row of its key. -/
def judgeRow (task : Task S) (attempts : Nat) (row : ObjectRecord (Admission S)) (nowMs : Int)
    (restored : Bool) :
    Phase S × Reply S :=
  let previous := row.payload
  if previous.formatVersion ≠ 1 then (.returned, .quiet)
  else if previous.isExpired nowMs then (.removing attempts row nowMs, .quiet)
  else if previous.fingerprint.protection.map (·.keyId) ≠ task.fingerprint.protection.map
    (·.keyId) then
    (.returned, .quiet)
  else if previous.fingerprint.payloadHash ≠ task.fingerprint.payloadHash then (.returned, .quiet)
  else if previous.fingerprint.workspaceId ≠ task.fingerprint.workspaceId ∨
      previous.fingerprint.targetId ≠ task.fingerprint.targetId ∨
      previous.fingerprint.protection ≠ task.fingerprint.protection then (.returned, .quiet)
  else match previous.success with
    | none => (.returned, .quiet)
    | some success => (.returned, if restored then .replayed success else .quiet)

/-- `delete_if` of a row read before. A conflict or an absent row is no failure of the caller. -/
def removeRow (store : Objects (Admission S)) (row : ObjectRecord (Admission S)) (clockMs : Int)
    (fault : Fault) :
    Objects (Admission S) × Bool × Reply S :=
  if fault = .lost then (store, false, .quiet)
  else match store.deleteIf row.id row.resourceVersion with
    | (store, true) => (store, true, .removed row.id clockMs)
    | (store, false) => (store, false, .quiet)

/-- The claim of a task: `create_if_workspace_count_below` with a fresh id. -/
def createClaim (store : Objects (Admission S)) (task : Task S) (attempts : Nat) (claimId : String)
    (nowMs : Int) (fault : Fault) : Objects (Admission S) × Phase S × Reply S :=
  if fault = .lost then (store, .returned, .quiet)
  else match store.createIfWorkspaceCountBelow claimId task.key task.bucket task.admission nowMs
      maxAdmissionsPerCaller with
    | none => (store, if fault = .none then retry attempts else .returned, .quiet)
    | some none => (store, if fault = .none then .listing attempts else .returned, .quiet)
    | some (some store) =>
      if fault = .none then (store, .executing claimId, .executes claimId) else
        (store, .returned, .quiet)

/-- The write of `Completion::complete`. -/
def recordSuccess (store : Objects (Admission S)) (task : Task S) (claimId : String) (success : S)
    (completedAtMs nowMs : Int) (tooLarge : Bool) (fault : Fault) :
    Objects (Admission S) × Reply S :=
  if tooLarge ∨ fault = .lost then (store, .quiet)
  else match store.putIf claimId 1 { task.admission with success, completedAtMs } nowMs with
    | none => (store, .quiet)
    | some store => (store, .recorded claimId)

/-- The step of one task. -/
def stepTask (store : Objects (Admission S)) (task : Task S) :
    Call S → Objects (Admission S) × Phase S × Reply S
  | .look _ nowMs restored =>
    match task.phase with
    | .looking attempts =>
      match store.getByName task.bucket task.key with
      | some row => (store, judgeRow task attempts row nowMs restored)
      | none => (store, .creating attempts, .quiet)
    | phase => (store, phase, .quiet)
  | .remove _ fault =>
    match task.phase with
    | .removing attempts row clockMs =>
      let (store, _, reply) := removeRow store row clockMs fault
      (store, if fault = .none then retry attempts else .returned, reply)
    | phase => (store, phase, .quiet)
  | .create _ claimId nowMs fault =>
    match task.phase with
    | .creating attempts => createClaim store task attempts claimId nowMs fault
    | phase => (store, phase, .quiet)
  | .list _ =>
    match task.phase with
    | .listing attempts =>
      (store, .pruning attempts (store.list task.bucket maxAdmissionsPerCaller) false, .quiet)
    | phase => (store, phase, .quiet)
  | .prune _ nowMs fault =>
    match task.phase with
    | .pruning attempts [] removed => (store, if removed then retry attempts else .returned, .quiet)
    | .pruning attempts (row :: rows) removed =>
      if row.payload.formatVersion = 1 ∧ row.payload.isExpired nowMs then
        let (store, deleted, reply) := removeRow store row nowMs fault
        (store, if fault = .none then .pruning attempts rows (removed || deleted) else
          .returned, reply)
      else (store, .pruning attempts rows removed, .quiet)
    | phase => (store, phase, .quiet)
  | .executed _ ok =>
    match task.phase with
    | .executing claimId =>
      (store, if ok then (if task.deferred then .streaming claimId else .completing claimId) else
        .returned, .quiet)
    | phase => (store, phase, .quiet)
  | .complete _ success completedAtMs nowMs tooLarge fault =>
    match task.phase with
    | .completing claimId =>
      let (store, reply) :=
        recordSuccess store task claimId success completedAtMs nowMs tooLarge fault
      (store, .returned, reply)
    | .streaming claimId =>
      let (store, reply) :=
        recordSuccess store task claimId success completedAtMs nowMs tooLarge fault
      (store, .streaming claimId, reply)
    | .executing claimId =>
      -- the completion of a deferred mutation is handed to `M::execute`
      if task.deferred then
        let (store, reply) :=
          recordSuccess store task claimId success completedAtMs nowMs tooLarge fault
        (store, .executing claimId, reply)
      else (store, .executing claimId, .quiet)
    | phase => (store, phase, .quiet)
  | .stop _ => (store, .returned, .quiet)
  | .start .. => (store, task.phase, .quiet)

/-- The task a call belongs to. -/
def Call.task : Call S → Option Nat
  | .start .. => none
  | .look task .. | .remove task .. | .create task .. | .list task | .prune task
      .. | .executed task ..
  | .complete task .. | .stop task => some task

/-- The claim id a call generates. -/
def Call.claimIds : Call S → List String
  | .create _ claimId _ _ => [claimId]
  | _ => []

def step (world : World S) (call : Call S) : World S × Reply S :=
  match call with
  | .start bucket key fingerprint deferred =>
    ({ world with tasks := world.tasks ++ [⟨bucket, key, fingerprint, deferred, .looking 7⟩] },
      .quiet)
  | call =>
    match call.task.bind (world.tasks[·]?), call.task with
    | some task, some index =>
      -- generated ids are fresh
      if call.claimIds.any (· ∈ world.claims) then (world, .quiet)
      else
        let (store, phase, reply) := stepTask world.store task call
        ({ store
           tasks := world.tasks.set index { task with phase }
           claims := call.claimIds ++ world.claims }, reply)
    | _, _ => (world, .quiet)

end Steps

end OpenShell.Server.MutationReplay
