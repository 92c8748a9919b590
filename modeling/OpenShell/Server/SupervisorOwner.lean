import OpenShell.Server.Lease

/-!
# The owner of a supervisor session

`SupervisorOwnerIndex`: which gateway replica serves the supervisor session of a
sandbox. The record has a fixed id, so every session of the sandbox writes the same
row. `publish_term` reads it, decides whether its session may replace it, and writes
it on the version it read; `release_if_current` reads it and deletes it on the version
it read. Any replica may write between the two calls.
-/

namespace OpenShell.Server.SupervisorOwner

open Persistence (Objects ObjectRecord)
open Lease (saturatingSub)

/-- A credential epoch is never zero. -/
structure CredentialEpoch where
  value : Nat
  ne_zero : value ≠ 0
  deriving DecidableEq

def CredentialEpoch.new (value : Nat) : Option CredentialEpoch :=
  if h : value = 0 then none else some ⟨value, h⟩

/-- The ownership term of a record is the credential epoch of its bearer; zero is unknown. -/
structure OwnerPayload where
  sandboxId : String
  sessionId : String
  supervisorInstanceId : String
  connectionEpoch : Nat
  authEpoch : Nat
  ownerReplicaId : String
  ownerPeerEndpoint : String
  connectedAtMs : Int
  deriving DecidableEq

structure OwnerRecord where
  sessionId : String
  supervisorInstanceId : String
  connectionEpoch : Nat
  authEpoch : Option CredentialEpoch
  ownerReplicaId : String
  ownerPeerEndpoint : String
  connectedAtMs : Int
  updatedAtMs : Int
  resourceVersion : Nat
  deriving DecidableEq

/-- A session as `publish_term` is called for it. -/
structure Session where
  sessionId : String
  supervisorInstanceId : String
  connectionEpoch : Nat
  authEpoch : Option CredentialEpoch
  ownerReplicaId : String
  ownerPeerEndpoint : String
  deriving DecidableEq

structure OwnerGuard where
  session : Session
  connectedAtMs : Int
  resourceVersion : Nat
  deriving DecidableEq

inductive OwnerError
  | alreadyOwned
  | conflict
  /-- An error of the store; here only a record that does not decode. -/
  | store
  deriving DecidableEq

inductive WriteCondition
  | mustCreate
  | matchResourceVersion (version : Nat)

abbrev OwnerStore := Objects OwnerPayload

def publishAttempts : Nat := 3

def ownerObjectId (sandboxId : String) : String := "supervisor-owner:" ++ sandboxId

def OwnerRecord.isFresh (record : OwnerRecord) (ttlMs : Nat) (nowMs : Int) : Bool :=
  max (saturatingSub nowMs record.updatedAtMs) 0 < min (ttlMs : Int) (2 ^ 63 - 1)

def decodeOwnerRecord (row : ObjectRecord OwnerPayload) : Except OwnerError OwnerRecord :=
  if row.payload.sandboxId ≠ row.name ∨ row.id ≠ ownerObjectId row.payload.sandboxId then
    .error .store
  else .ok {
    sessionId := row.payload.sessionId
    supervisorInstanceId := row.payload.supervisorInstanceId
    connectionEpoch := row.payload.connectionEpoch
    authEpoch := CredentialEpoch.new row.payload.authEpoch
    ownerReplicaId := row.payload.ownerReplicaId
    ownerPeerEndpoint := row.payload.ownerPeerEndpoint
    connectedAtMs := row.payload.connectedAtMs
    updatedAtMs := row.updatedAtMs
    resourceVersion := row.resourceVersion }

section Store
variable (store : OwnerStore) (sandboxId : String)

def read : Except OwnerError (Option OwnerRecord) :=
  match store.get (ownerObjectId sandboxId) with
  | none => .ok none
  | some row => some <$> decodeOwnerRecord row

/-- Terms are ordered only when both are known. -/
def termOrder (claimed current : Option CredentialEpoch) : Option Ordering :=
  match claimed, current with
  | some claimed, some current => some (compare claimed.value current.value)
  | _, _ => none

/-- Whether a session may replace `existing` as its sandbox's owner. -/
def canSupersede (existing : OwnerRecord) (session : Session) (ttlMs : Nat) (nowMs : Int) : Bool :=
  if !existing.isFresh ttlMs nowMs then true
  else
    match termOrder session.authEpoch existing.authEpoch with
    | some .gt => true
    | some .lt => false
    | some .eq | none =>
      existing.supervisorInstanceId = session.supervisorInstanceId ∧
        existing.connectionEpoch < session.connectionEpoch

/-- The payload of `publish_term`, and of `renew` for the guard it returned. -/
def Session.payload (session : Session) (sandboxId : String) (connectedAtMs : Int) :
    OwnerPayload where
  sandboxId := sandboxId
  sessionId := session.sessionId
  supervisorInstanceId := session.supervisorInstanceId
  connectionEpoch := session.connectionEpoch
  authEpoch := (session.authEpoch.map (·.value)).getD 0
  ownerReplicaId := session.ownerReplicaId
  ownerPeerEndpoint := session.ownerPeerEndpoint
  connectedAtMs := connectedAtMs

/-- A conditional write of the record, with the version it wrote. -/
def writePayload (payload : OwnerPayload) (nowMs : Int) :
    WriteCondition → OwnerStore × Except OwnerError Nat
  | .mustCreate =>
    match store.insertNew (ownerObjectId sandboxId) sandboxId "" payload nowMs with
    | some store => (store, .ok 1)
    | none => (store, .error .alreadyOwned)
  | .matchResourceVersion version =>
    match store.putIf (ownerObjectId sandboxId) version payload nowMs with
    | some store => (store, .ok (version + 1))
    | none => (store, .error .conflict)

/-- The read of `publish_term`: the record the session may replace, or none. -/
def decideRead (session : Session) (ttlMs : Nat) (nowMs : Int) :
    Except OwnerError (Option OwnerRecord) :=
  match read store sandboxId with
  | .error error => .error error
  | .ok none => .ok none
  | .ok (some existing) =>
    if canSupersede existing session ttlMs nowMs then .ok (some existing) else .error .alreadyOwned

/-- The condition `publish_term` writes under. -/
def conditionFor : Option OwnerRecord → WriteCondition
  | none => .mustCreate
  | some existing => .matchResourceVersion existing.resourceVersion

/-- The read of `release_if_current`: the session's own record, if it is the stored one. -/
def ownRecord (guard : OwnerGuard) : Except OwnerError (Option OwnerRecord) :=
  match read store sandboxId with
  | .error error => .error error
  | .ok none => .ok none
  | .ok (some record) =>
    if record.sessionId ≠ guard.session.sessionId ∨
      record.ownerReplicaId ≠ guard.session.ownerReplicaId then .ok none
    else .ok (some record)

end Store

/-! ## Replicas -/

/-- How far a replica is with a session. -/
inductive Task
  /-- `publish_term`, about to read. -/
  | publishing (session : Session) (connectedAtMs : Int) (attempts : Nat)
  /-- `publish_term`, about to write on what it read at a time. -/
  | writing (session : Session) (connectedAtMs : Int) (attempts : Nat)
      (existing : Option OwnerRecord) (readAtMs : Int)
  | holding (guard : OwnerGuard)
  /-- `release_if_current`, about to delete the record it read. -/
  | releasing (guard : OwnerGuard) (record : OwnerRecord)
  | failed (error : OwnerError)

structure World where
  store : OwnerStore
  tasks : List Task

def World.initial : World := ⟨.empty, []⟩

/-- Calls of the store, each by one task. -/
inductive Call
  | publish (session : Session) (connectedAtMs : Int)
  | readOwner (task : Nat) (nowMs : Int)
  | writeOwner (task : Nat) (nowMs : Int)
  | renew (task : Nat) (nowMs : Int)
  | readOwn (task : Nat)
  /-- Where no row is deleted, `delete_if` reads again and reports a conflict if there is one. -/
  | deleteOwn (task : Nat) (rowSeen : Bool)

inductive Reply
  | started
  | mayWrite
  /-- A successful write of `publish_term`, on what the writer had read at a time. -/
  | published (session : Session) (existing : Option OwnerRecord) (readAtMs : Int)
  | retry
  | renewed (session : Session)
  | mayDelete
  /-- A release went through; whether it deleted the row. -/
  | released (session : Session) (deleted : Bool)
  | refused (error : OwnerError)
  /-- There is no such task, or it is elsewhere. -/
  | idle

def World.become (world : World) (task : Nat) (next : Task) : World :=
  { world with tasks := world.tasks.set task next }

section
variable (sandboxId : String) (ttlMs : Nat)

/-- The write of `publish_term`. A conflict is tried again, a few times. -/
def World.publish (world : World) (task : Nat) (session : Session) (connectedAtMs : Int)
    (attempts : Nat) (existing : Option OwnerRecord) (readAtMs nowMs : Int) : World × Reply :=
  match writePayload world.store sandboxId (session.payload sandboxId connectedAtMs) nowMs
    (conditionFor existing) with
  | (store, .ok version) =>
    ({ world with store }.become task (.holding ⟨session, connectedAtMs, version⟩),
      .published session existing readAtMs)
  | (_, .error error) =>
    if error = .conflict ∧ attempts < publishAttempts then
      (world.become task (.publishing session connectedAtMs attempts), .retry)
    else (world.become task (.failed error), .refused error)

def World.renew (world : World) (task : Nat) (guard : OwnerGuard) (nowMs : Int) : World × Reply :=
  match writePayload world.store sandboxId
    (guard.session.payload sandboxId guard.connectedAtMs) nowMs
      (.matchResourceVersion guard.resourceVersion) with
  | (store, .ok version) =>
    ({ world with store }.become task (.holding { guard with resourceVersion := version }),
      .renewed guard.session)
  | (_, .error error) => (world, .refused error)

/-- The delete of `release_if_current`. The caller keeps its guard. -/
def World.delete (world : World) (task : Nat) (guard : OwnerGuard) (record : OwnerRecord)
    (rowSeen : Bool) :
    World × Reply :=
  match world.store.deleteIf (ownerObjectId sandboxId) record.resourceVersion with
  | (store, true) =>
    ({ world with store }.become task (.holding guard), .released guard.session true)
  | (_, false) =>
    (world.become task (.holding guard), if rowSeen then .refused .conflict else
      .released guard.session false)

def step (world : World) : Call → World × Reply
  | .publish session connectedAtMs =>
    ({ world with tasks := world.tasks ++ [.publishing session connectedAtMs 0] }, .started)
  | .readOwner task nowMs =>
    match world.tasks[task]? with
    | some (.publishing session connectedAtMs attempts) =>
      match decideRead world.store sandboxId session ttlMs nowMs with
      | .ok existing =>
        (world.become task (.writing session connectedAtMs (attempts + 1) existing nowMs),
          .mayWrite)
      | .error error => (world.become task (.failed error), .refused error)
    | _ => (world, .idle)
  | .writeOwner task nowMs =>
    match world.tasks[task]? with
    | some (.writing session connectedAtMs attempts existing readAtMs) =>
      world.publish sandboxId task session connectedAtMs attempts existing readAtMs nowMs
    | _ => (world, .idle)
  | .renew task nowMs =>
    match world.tasks[task]? with
    | some (.holding guard) => world.renew sandboxId task guard nowMs
    | _ => (world, .idle)
  | .readOwn task =>
    match world.tasks[task]? with
    | some (.holding guard) =>
      match ownRecord world.store sandboxId guard with
      | .ok (some record) => (world.become task (.releasing guard record), .mayDelete)
      | .ok none => (world, .released guard.session false)
      | .error error => (world, .refused error)
    | _ => (world, .idle)
  | .deleteOwn task rowSeen =>
    match world.tasks[task]? with
    | some (.releasing guard record) => world.delete sandboxId task guard record rowSeen
    | _ => (world, .idle)

end

end OpenShell.Server.SupervisorOwner
