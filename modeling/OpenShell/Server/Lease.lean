import Mathlib
import OpenShell.Persistence.Objects
import OpenShell.Util.Run

/-!
# Reconciler lease

`ReconcilerLease`: one row of the `objects` table with a fixed id, written by any
number of replicas through conditional writes. A guard carries the resource
version its holder wrote last. `try_steal_expired` reads the row and writes it in
two calls of the store, so other replicas may act in between.
-/

namespace OpenShell.Server.Lease

open Persistence (Objects ObjectRecord)

structure LeasePayload where
  holder : String
  acquiredAtMs : Int

structure LeaseRecord where
  holder : String
  acquiredAtMs : Int
  resourceVersion : Nat
  updatedAtMs : Int

structure LeaseGuard where
  resourceVersion : Nat
  acquiredAtMs : Int

inductive LeaseError
  | alreadyHeld
  | notFound
  | conflict
  deriving DecidableEq

def leaseSingletonId : String := "singleton"

def leaseSingletonName : String := "reconciler-lease"

abbrev LeaseStore := Objects LeasePayload

section Store
variable (store : LeaseStore) (replicaId : String)

def tryAcquire (acquiredAtMs nowMs : Int) : LeaseStore × Except LeaseError LeaseGuard :=
  match store.insertNew leaseSingletonId leaseSingletonName "" ⟨replicaId, acquiredAtMs⟩ nowMs with
  | some store => (store, .ok ⟨1, acquiredAtMs⟩)
  | none => (store, .error .alreadyHeld)

def read : Option LeaseRecord :=
  (store.get leaseSingletonId).map fun row =>
    ⟨row.payload.holder, row.payload.acquiredAtMs, row.resourceVersion, row.updatedAtMs⟩

/-- `i64::saturating_sub`. -/
def saturatingSub (a b : Int) : Int := max (-2 ^ 63) (min (a - b) (2 ^ 63 - 1))

def leaseIsExpired (nowMs updatedAtMs ttlMs : Int) : Bool :=
  ttlMs ≤ max (saturatingSub nowMs updatedAtMs) 0

/-- `try_steal_expired` up to its write: the lease it is going to steal. -/
def readExpired (ttlMs currentMs : Int) : Except LeaseError LeaseRecord :=
  match read store with
  | none => .error .notFound
  | some record =>
    if leaseIsExpired currentMs record.updatedAtMs ttlMs then .ok record else .error .alreadyHeld

/-- A version-matched write of the lease: the guard of the version written. -/
def writeLease (acquiredAtMs : Int) (expectedVersion : Nat) (nowMs : Int) :
    LeaseStore × Except LeaseError LeaseGuard :=
  match store.putIf leaseSingletonId expectedVersion ⟨replicaId, acquiredAtMs⟩ nowMs with
  | some store => (store, .ok ⟨expectedVersion + 1, acquiredAtMs⟩)
  | none => (store, .error .conflict)

/-- The write of `try_steal_expired`. -/
def steal (record : LeaseRecord) (acquiredAtMs nowMs : Int) :
    LeaseStore × Except LeaseError LeaseGuard :=
  writeLease store replicaId acquiredAtMs record.resourceVersion nowMs

def renew (guard : LeaseGuard) (nowMs : Int) : LeaseStore × Except LeaseError LeaseGuard :=
  writeLease store replicaId guard.acquiredAtMs guard.resourceVersion nowMs

/-- `release`, with what `delete_if` answered: the row was deleted, there is none, or a
conflict. Where no row was deleted, `delete_if` decides between the last two by a second
read, at which others may have written (`rowSeen`); `release` returns success in the
first two cases. -/
def release (guard : LeaseGuard) (rowSeen : Bool) : LeaseStore × Except LeaseError Bool :=
  match store.deleteIf leaseSingletonId guard.resourceVersion with
  | (store, true) => (store, .ok true)
  | (store, false) => (store, if rowSeen then .error .conflict else .ok false)

end Store

/-! ## Replicas -/

/-- A guard some replica holds. The number tells guards apart. -/
structure Held where
  id : Nat
  replicaId : String
  guard : LeaseGuard

structure World where
  store : LeaseStore
  held : List Held
  /-- Calls of `try_steal_expired` that have read the row and not written it yet. -/
  stealing : List (String × LeaseRecord)
  /-- How many guards were handed out. -/
  issued : Nat

def World.initial : World := ⟨.empty, [], [], 0⟩

inductive Call
  | tryAcquire (replicaId : String) (acquiredAtMs nowMs : Int)
  | readExpired (replicaId : String) (ttlMs currentMs : Int)
  | steal (caller : Nat) (acquiredAtMs nowMs : Int)
  | renew (id : Nat) (nowMs : Int)
  | release (id : Nat) (rowSeen : Bool)
  /-- A guard is dropped without being released. -/
  | drop (id : Nat)

inductive Reply
  | granted (id : Nat)
  | refused (e : LeaseError)
  | expired
  | renewed
  | released (answer : Except LeaseError Bool)
  | dropped
  /-- There is no such guard or caller. -/
  | idle

/-- A new guard is handed out, or the call is refused. -/
def World.grant (world : World) (replicaId : String) : LeaseStore × Except LeaseError LeaseGuard →
    World × Reply
  | (store, .ok guard) =>
    ({ world with
        store, held := ⟨world.issued, replicaId, guard⟩ :: world.held, issued := world.issued + 1 },
      .granted world.issued)
  | (store, .error e) => ({ world with store }, .refused e)

def step (world : World) : Call → World × Reply
  | .tryAcquire replicaId acquiredAtMs nowMs =>
    world.grant replicaId (tryAcquire world.store replicaId acquiredAtMs nowMs)
  | .readExpired replicaId ttlMs currentMs =>
    match readExpired world.store ttlMs currentMs with
    | .ok record => ({ world with stealing := (replicaId, record) :: world.stealing }, .expired)
    | .error e => (world, .refused e)
  | .steal caller acquiredAtMs nowMs =>
    match world.stealing[caller]? with
    | none => (world, .idle)
    | some (replicaId, record) =>
      { world with stealing := world.stealing.eraseIdx caller }.grant replicaId
        (steal world.store replicaId record acquiredAtMs nowMs)
  | .renew id nowMs =>
    match world.held.find? (·.id = id) with
    | none => (world, .idle)
    | some held =>
      match renew world.store held.replicaId held.guard nowMs with
      | (store, .ok guard) =>
        ({ world with store, held := world.held.map fun h =>
          if h.id = id then { h with guard } else h }, .renewed)
      | (store, .error e) => ({ world with store }, .refused e)
  | .release id rowSeen =>
    match world.held.find? (·.id = id) with
    | none => (world, .idle)
    | some held =>
      let (store, answer) := release world.store held.guard rowSeen
      ({ world with store, held := world.held.filter (·.id ≠ id) }, .released answer)
  | .drop id =>
    ({ world with held := world.held.filter (·.id ≠ id) },
      if world.held.any (·.id = id) then .dropped else .idle)

end OpenShell.Server.Lease
