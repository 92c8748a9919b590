import Mathlib.Data.Set.Defs
import OpenShell.Server.SupervisorOwner
import OpenShell.Util.Result

/-!
# Ownership moves by supersession

Runs of any number of replicas over the owner record of one sandbox. Who wrote what
is decided by the version of the row alone. As long as no record is deleted, a version
names one record, and a write on a version replaces the record that was read. A deleted
record is created again at version one, and then a guard of the old one fits the new.

Terms are ordered only where both are known. A session of unknown term replaces the
record of its own supervisor instance, whatever its term, and is replaced by a later
session of that instance, whatever its term: between the two, the term can go down.
-/

namespace OpenShell.Server.SupervisorOwner

open Persistence (Objects ObjectRecord)

/-! ## What a call can do -/

/-- The session written, by a write that succeeded. -/
def Reply.written : Reply → Option Session
  | .published session _ _ => some session
  | .renewed session => some session
  | _ => none

def Reply.deletes : Reply → Bool
  | .released _ deleted => deleted
  | _ => false

def Task.session : Task → Option Session
  | .publishing session _ _ => some session
  | .writing session _ _ _ _ => some session
  | .holding guard => some guard.session
  | .releasing guard _ => some guard.session
  | .failed _ => none

/-- A task gives up a step: nothing new is known to it. -/
inductive Quiet : Task → Task → Prop
  | failed (task : Task) (error : OwnerError) : Quiet task (.failed error)
  | retry (session : Session) (connectedAtMs : Int) (attempts : Nat) (existing : Option OwnerRecord)
      (readAtMs : Int) :
      Quiet (.writing session connectedAtMs attempts existing readAtMs)
        (.publishing session connectedAtMs attempts)
  | keep (guard : OwnerGuard) (record : OwnerRecord) :
      Quiet (.releasing guard record) (.holding guard)

variable {world : World} {task attempts : Nat} {session : Session}
  {connectedAtMs nowMs readAtMs : Int}
variable {existing : Option OwnerRecord} {guard : OwnerGuard}

section
variable (sandboxId : String) (ttlMs : Nat)

inductive Took (world : World) : Call → World → Reply → Prop
  | started (session : Session) (connectedAtMs : Int) :
      Took world (.publish session connectedAtMs)
        { world with tasks := world.tasks ++ [.publishing session connectedAtMs 0] } .started
  | decided {task : Nat} {session : Session} {connectedAtMs : Int} {attempts : Nat}
      {existing : Option OwnerRecord}
      {nowMs : Int} (htask : world.tasks[task]? = some (.publishing session connectedAtMs attempts))
      (hread : decideRead world.store sandboxId session ttlMs nowMs = .ok existing) :
      Took world (.readOwner task nowMs)
        (world.become task (.writing session connectedAtMs (attempts + 1) existing nowMs)) .mayWrite
  | published {task : Nat} {session : Session} {connectedAtMs : Int} {attempts : Nat}
      {existing : Option OwnerRecord}
      {readAtMs nowMs : Int} {store : OwnerStore} {version : Nat}
      (htask : world.tasks[task]? =
        some (.writing session connectedAtMs attempts existing readAtMs))
      (hwrite : writePayload world.store sandboxId (session.payload sandboxId connectedAtMs) nowMs
        (conditionFor existing) = (store, .ok version)) :
      Took world (.writeOwner task nowMs)
        ({ world with store }.become task (.holding ⟨session, connectedAtMs, version⟩))
        (.published session existing readAtMs)
  | renewed {task : Nat} {guard : OwnerGuard} {nowMs : Int} {store : OwnerStore} {version : Nat}
      (htask : world.tasks[task]? = some (.holding guard))
      (hwrite : writePayload world.store sandboxId
        (guard.session.payload sandboxId guard.connectedAtMs) nowMs
        (.matchResourceVersion guard.resourceVersion) = (store, .ok version)) :
      Took world (.renew task nowMs)
        ({ world with store }.become task (.holding { guard with resourceVersion := version }))
        (.renewed guard.session)
  | ownRead {task : Nat} {guard : OwnerGuard} {record : OwnerRecord}
      (htask : world.tasks[task]? = some (.holding guard)) :
      Took world (.readOwn task) (world.become task (.releasing guard record)) .mayDelete
  | deleted {task : Nat} {guard : OwnerGuard} {record : OwnerRecord} {rowSeen : Bool}
      (htask : world.tasks[task]? = some (.releasing guard record))
      (hdelete : (world.store.deleteIf (ownerObjectId sandboxId) record.resourceVersion).2 = true) :
      Took world (.deleteOwn task rowSeen)
        ({ world with store :=
          (world.store.deleteIf (ownerObjectId sandboxId) record.resourceVersion).1 }.become task
          (.holding guard)) (.released guard.session true)
  | quiet {call : Call} {task : Nat} {old new : Task} {reply : Reply}
      (htask : world.tasks[task]? = some old)
      (hquiet : Quiet old new) (hwritten : reply.written = none)
      (hdeletes : reply.deletes = false) :
      Took world call (world.become task new) reply
  | idle {call : Call} {reply : Reply} (hwritten : reply.written = none)
      (hdeletes : reply.deletes = false) :
      Took world call world reply

theorem publish_took
    (htask : world.tasks[task]? =
      some (.writing session connectedAtMs attempts existing readAtMs)) :
    Took sandboxId ttlMs world (.writeOwner task nowMs)
      (world.publish sandboxId task session connectedAtMs attempts existing readAtMs nowMs).1
      (world.publish sandboxId task session connectedAtMs attempts existing readAtMs nowMs).2 := by
  rw [World.publish]
  split
  next store version hwrite => exact .published htask hwrite
  next error hwrite =>
    split
    · exact .quiet htask (.retry ..) rfl rfl
    · exact .quiet htask (.failed ..) rfl rfl

theorem renew_took (htask : world.tasks[task]? = some (.holding guard)) :
    Took sandboxId ttlMs world (.renew task nowMs) (world.renew sandboxId task guard nowMs).1
      (world.renew sandboxId task guard nowMs).2 := by
  rw [World.renew]
  split
  next store version hwrite => exact .renewed htask hwrite
  next error hwrite => exact .idle rfl rfl

theorem delete_took {record : OwnerRecord} {rowSeen : Bool}
    (htask : world.tasks[task]? = some (.releasing guard record)) :
    Took sandboxId ttlMs world (.deleteOwn task rowSeen)
      (world.delete sandboxId task guard record rowSeen).1
      (world.delete sandboxId task guard record rowSeen).2 := by
  rw [World.delete]
  split
  next store hdelete =>
    have htrue : (world.store.deleteIf (ownerObjectId sandboxId) record.resourceVersion).2 = true :=
      by rw [hdelete]
    have hstore : store =
        (world.store.deleteIf (ownerObjectId sandboxId) record.resourceVersion).1 := by rw [hdelete]
    rw [hstore]
    exact .deleted htask htrue
  next store hdelete =>
    refine .quiet htask (.keep ..) ?_ ?_
    · split <;> rfl
    · split <;> rfl

theorem step_took (world : World) (call : Call) :
    Took sandboxId ttlMs world call (step sandboxId ttlMs world call).1
      (step sandboxId ttlMs world call).2 := by
  cases call with
  | publish session connectedAtMs => exact .started session connectedAtMs
  | readOwner task nowMs =>
    rw [step]
    split
    next session connectedAtMs attempts htask =>
      split
      next existing hread => exact .decided htask hread
      next error hread => exact .quiet htask (.failed ..) rfl rfl
    next => exact .idle rfl rfl
  | writeOwner task nowMs =>
    rw [step]
    split
    next session connectedAtMs attempts existing readAtMs htask =>
      exact publish_took sandboxId ttlMs htask
    next => exact .idle rfl rfl
  | renew task nowMs =>
    rw [step]
    split
    next guard htask => exact renew_took sandboxId ttlMs htask
    next => exact .idle rfl rfl
  | readOwn task =>
    rw [step]
    split
    next guard htask =>
      split
      next record hown => exact .ownRead htask
      next hown => exact .idle rfl rfl
      next error hown => exact .idle rfl rfl
    next => exact .idle rfl rfl
  | deleteOwn task rowSeen =>
    rw [step]
    split
    next guard record htask => exact delete_took sandboxId ttlMs htask
    next => exact .idle rfl rfl

end

/-! ## The stored record -/

variable {row : ObjectRecord OwnerPayload} {store : OwnerStore} {payload : OwnerPayload}
  {version : Nat} {t : Task}

section Stored
variable {sandboxId : String} {ttlMs : Nat}

def World.stored (sandboxId : String) (world : World) : Option (ObjectRecord OwnerPayload) :=
  world.store.get (ownerObjectId sandboxId)

/-- The record a row of the sandbox decodes to. -/
def recordOf (row : ObjectRecord OwnerPayload) : OwnerRecord where
  sessionId := row.payload.sessionId
  supervisorInstanceId := row.payload.supervisorInstanceId
  connectionEpoch := row.payload.connectionEpoch
  authEpoch := CredentialEpoch.new row.payload.authEpoch
  ownerReplicaId := row.payload.ownerReplicaId
  ownerPeerEndpoint := row.payload.ownerPeerEndpoint
  connectedAtMs := row.payload.connectedAtMs
  updatedAtMs := row.updatedAtMs
  resourceVersion := row.resourceVersion

variable {record : OwnerRecord}

theorem read_eq_some (h : read store sandboxId = .ok (some record)) :
    ∃ row, store.get (ownerObjectId sandboxId) = some row ∧ recordOf row = record := by
  rw [read] at h
  cases hget : store.get (ownerObjectId sandboxId) with
  | none => simp [hget] at h
  | some row =>
    simp only [hget] at h
    obtain ⟨record', hdecode, hsome⟩ := map_eq_ok h
    cases hsome
    rw [decodeOwnerRecord] at hdecode
    exact ⟨row, rfl, Except.ok.inj (else_of_ite hdecode nofun).2⟩

/-- A record of the sandbox is read as it is stored. -/
theorem read_of_get (hget : store.get (ownerObjectId sandboxId) = some row)
    (hname : row.name = sandboxId) (hpayload : row.payload.sandboxId = sandboxId) :
    read store sandboxId = .ok (some (recordOf row)) := by
  have hid : row.id = ownerObjectId sandboxId := (Objects.get_eq_some_iff.mp hget).2
  rw [read, hget]
  simp only [decodeOwnerRecord]
  rw [if_neg (by simp [hid, hname, hpayload])]
  rfl

/-- What `publish_term` goes on with was read and may be replaced. -/
theorem decideRead_eq_ok (h : decideRead store sandboxId session ttlMs nowMs = .ok existing)
    (hsome : existing = some record) :
    canSupersede record session ttlMs nowMs = true ∧
      ∃ row, store.get (ownerObjectId sandboxId) = some row ∧ recordOf row = record := by
  subst hsome
  rw [decideRead] at h
  split at h
  next => cases h
  next => cases h
  next existing hread =>
    obtain ⟨hmay, h⟩ := then_of_ite h nofun
    obtain rfl : existing = record := Option.some.inj (Except.ok.inj h)
    exact ⟨hmay, read_eq_some hread⟩

variable {store' : OwnerStore}

/-- A write that creates finds no record. -/
theorem writePayload_create
    (h : writePayload store sandboxId payload nowMs .mustCreate = (store', .ok version)) :
    store.get (ownerObjectId sandboxId) = none ∧
      ∃ row, store'.get (ownerObjectId sandboxId) = some row ∧
      row.payload = payload ∧ row.name = sandboxId ∧ row.resourceVersion = version := by
  rw [writePayload] at h
  split at h
  next store'' hinsert =>
    obtain ⟨rfl, hversion⟩ := Prod.mk.inj h
    cases hversion
    obtain ⟨hnone, hnew⟩ := Objects.get_insertNew hinsert
    exact ⟨hnone, _, hnew, rfl, rfl, rfl⟩
  next => cases h

/-- A write on a version finds the record of that version, and snapshots stay snapshots. -/
theorem writePayload_match {expected : Nat}
    (h : writePayload store sandboxId payload nowMs (.matchResourceVersion expected) =
      (store', .ok version)) :
    (∃ old row, store.get (ownerObjectId sandboxId) = some old ∧ old.resourceVersion = expected ∧
      store'.get (ownerObjectId sandboxId) = some row ∧ row.payload = payload ∧
        row.name = old.name ∧
      row.resourceVersion = version) ∧
    ∀ snapshot, store.Follows snapshot → store'.Follows snapshot := by
  rw [writePayload] at h
  split at h
  next store'' hput =>
    obtain ⟨rfl, hversion⟩ := Prod.mk.inj h
    cases hversion
    obtain ⟨old, hold, heq, hnew⟩ := Objects.get_putIf hput
    exact ⟨⟨old, _, hold, heq, hnew, rfl, rfl, rfl⟩, fun snapshot hfollows => hfollows.putIf hput⟩
  next => cases h

theorem mem_become {next : Task} (h : t ∈ (world.become task next).tasks) :
    t ∈ world.tasks ∨ t = next :=
  List.mem_or_eq_of_mem_set h

end Stored

/-! ## Whose record it is -/

section Members
variable {sandboxId : String} {ttlMs : Nat} {sessions : Set Session} {world world' : World}
  {call : Call} {reply : Reply}

/-- Every record and every task belongs to one of the sessions, and a task that is about to
replace a record was allowed to. -/
structure Members (sandboxId : String) (ttlMs : Nat) (sessions : Set Session)
    (world : World) : Prop where
  tasks : ∀ t ∈ world.tasks, ∀ session, t.session = some session → session ∈ sessions
  accepted : ∀ session connectedAtMs attempts record readAtMs,
    .writing session connectedAtMs attempts (some record) readAtMs ∈ world.tasks →
    canSupersede record session ttlMs readAtMs = true
  stored : ∀ row, world.stored sandboxId = some row → row.name = sandboxId ∧
    ∃ session ∈ sessions, ∃ connectedAtMs, row.payload = session.payload sandboxId connectedAtMs

/-- The sessions that publish. -/
def Call.Of (sessions : Set Session) : Call → Prop
  | .publish session _ => session ∈ sessions
  | _ => True

variable (h : Members sandboxId ttlMs sessions world)
include h

theorem Members.become {next : Task}
    (hsession : ∀ session, next.session = some session → session ∈ sessions)
    (haccepted : ∀ session connectedAtMs attempts record readAtMs,
      next = .writing session connectedAtMs attempts (some record) readAtMs →
      canSupersede record session ttlMs readAtMs = true) :
    Members sandboxId ttlMs sessions (world.become task next) where
  tasks t ht session hs := by
    rcases mem_become ht with ht | rfl
    · exact h.tasks t ht session hs
    · exact hsession session hs
  accepted session connectedAtMs attempts record readAtMs ht := by
    rcases mem_become ht with ht | ht
    · exact h.accepted session connectedAtMs attempts record readAtMs ht
    · exact haccepted session connectedAtMs attempts record readAtMs ht.symm
  stored := h.stored

/-- A session writes its record and holds it. -/
theorem Members.hold (hsession : guard.session ∈ sessions)
    (hget : store.get (ownerObjectId sandboxId) = some row) (hname : row.name = sandboxId)
    (hpayload : row.payload = guard.session.payload sandboxId guard.connectedAtMs) :
    Members sandboxId ttlMs sessions ({ world with store }.become task (.holding guard)) := by
  have hworld : Members sandboxId ttlMs sessions { world with store } := by
    refine ⟨h.tasks, h.accepted, fun row' hrow' => ?_⟩
    obtain rfl := Option.mem_unique hget hrow'
    exact ⟨hname, guard.session, hsession, guard.connectedAtMs, hpayload⟩
  refine hworld.become (fun session hs => ?_) nofun
  cases hs
  exact hsession

theorem Members.took (htook : Took sandboxId ttlMs world call world' reply)
    (hof : call.Of sessions) : Members sandboxId ttlMs sessions world' := by
  have hmem : ∀ {task : Nat} {t : Task} {session : Session}, world.tasks[task]? = some t →
      t.session = some session → session ∈ sessions :=
    fun htask hs => h.tasks _ (List.mem_of_getElem? htask) _ hs
  cases htook with
  | started session connectedAtMs =>
    refine ⟨fun t ht session' hs => ?_, fun session' _ _ _ _ ht => ?_, h.stored⟩
    · rcases List.mem_append.mp ht with ht | ht
      · exact h.tasks t ht session' hs
      · rw [List.mem_singleton.mp ht] at hs
        cases hs
        exact hof
    · rcases List.mem_append.mp ht with ht | ht
      · exact h.accepted _ _ _ _ _ ht
      · cases List.mem_singleton.mp ht
  | decided htask hread =>
    refine h.become (fun session hs => hmem htask hs) fun session _ _ record _ heq => ?_
    cases heq
    exact (decideRead_eq_ok hread rfl).1
  | @published _ session connectedAtMs _ existing _ _ _ _ htask hwrite =>
    have hsession : session ∈ sessions := hmem htask rfl
    cases existing with
    | none =>
      obtain ⟨-, row, hget, hpayload, hname, -⟩ := writePayload_create hwrite
      exact h.hold hsession hget hname hpayload
    | some record =>
      obtain ⟨⟨old, row, hold, -, hget, hpayload, hname, -⟩, -⟩ := writePayload_match hwrite
      exact h.hold hsession hget (hname.trans (h.stored old hold).1) hpayload
  | renewed htask hwrite =>
    obtain ⟨⟨old, row, hold, -, hget, hpayload, hname, -⟩, -⟩ := writePayload_match hwrite
    exact h.hold (hmem htask rfl) hget (hname.trans (h.stored old hold).1) hpayload
  | ownRead htask => exact h.become (fun session hs => hmem htask hs) nofun
  | @deleted _ _ record _ htask hdelete =>
    have hworld : Members sandboxId ttlMs sessions
        { world with store :=
          (world.store.deleteIf (ownerObjectId sandboxId) record.resourceVersion).1 } := by
      refine ⟨h.tasks, h.accepted, fun row hrow => ?_⟩
      obtain ⟨-, -, hnone⟩ := Objects.get_deleteIf hdelete
      cases hnone.symm.trans hrow
    exact hworld.become (fun session hs => hmem htask hs) nofun
  | quiet htask hquiet hwritten hdeletes =>
    cases hquiet with
    | failed task error => exact h.become nofun nofun
    | retry | keep => exact h.become (fun session hs => hmem htask hs) nofun
  | idle hwritten hdeletes => exact h

end Members

/-! ## Versions name records -/

variable {old : ObjectRecord OwnerPayload}

section Fenced
variable {sandboxId : String} {ttlMs : Nat} {world world' : World} {call : Call} {reply : Reply}

/-- The row a task writes on, if it writes on one. -/
def Task.Expects (sandboxId : String) (row : ObjectRecord OwnerPayload) : Task → Prop
  | .writing _ _ _ (some record) _ => recordOf row = record
  | .holding guard | .releasing guard _ =>
    row.payload = guard.session.payload sandboxId guard.connectedAtMs ∧
      row.resourceVersion = guard.resourceVersion
  | _ => False

def Task.writesOn : Task → Bool
  | .writing _ _ _ existing _ => existing.isSome
  | .holding _ | .releasing _ _ => true
  | _ => false

/-- The stored record is the one a task writes on, or was written since. -/
def Expected (sandboxId : String) (store : OwnerStore) (t : Task) : Prop :=
  t.writesOn = true → (∃ row, store.get (ownerObjectId sandboxId) = some row) ∧
    ∃ row, t.Expects sandboxId row ∧ row.id = ownerObjectId sandboxId ∧ store.Follows row

def Fenced (sandboxId : String) (world : World) : Prop :=
  ∀ t ∈ world.tasks, Expected sandboxId world.store t

theorem expected_of_get (hget : store.get (ownerObjectId sandboxId) = some row)
    (hexpects : t.Expects sandboxId row) :
    Expected sandboxId store t := by
  obtain ⟨hmem, hid⟩ := Objects.get_eq_some_iff.mp hget
  exact fun _ => ⟨⟨row, hget⟩, row, hexpects, hid, Objects.follows_of_mem hmem⟩

variable (h : Fenced sandboxId world)
include h

theorem Fenced.become {next : Task}
    (hnext : Expected sandboxId world.store next) : Fenced sandboxId (world.become task next) := by
  intro t ht
  rcases mem_become ht with ht | rfl
  · exact h t ht
  · exact hnext

/-- A write on a version keeps every expectation. -/
theorem Fenced.write {expected : Nat}
    {next : Task}
    (hwrite : writePayload world.store sandboxId payload nowMs (.matchResourceVersion expected) =
      (store, .ok version))
    (hnext : ∀ row, row.payload = payload → row.resourceVersion = version →
      next.Expects sandboxId row) :
    Fenced sandboxId ({ world with store }.become task next) := by
  obtain ⟨⟨old, row, -, -, hget, hpayload, -, hversion⟩, hfollows⟩ := writePayload_match hwrite
  have hworld : Fenced sandboxId { world with store } := by
    intro t ht hwrites
    obtain ⟨-, row', hexpects, hid, hfollows'⟩ := h t ht hwrites
    exact ⟨⟨row, hget⟩, row', hexpects, hid, hfollows row' hfollows'⟩
  exact hworld.become (expected_of_get hget (hnext row hpayload hversion))

theorem Fenced.took (htook : Took sandboxId ttlMs world call world' reply)
    (hkept : reply.deletes = false) : Fenced sandboxId world' := by
  cases htook with
  | started session connectedAtMs =>
    exact List.forall_mem_append.mpr ⟨h, List.forall_mem_singleton.mpr nofun⟩
  | @decided _ _ _ _ existing _ htask hread =>
    refine h.become ?_
    cases existing with
    | none => exact nofun
    | some record =>
      obtain ⟨-, row, hget, hrecord⟩ := decideRead_eq_ok hread rfl
      exact expected_of_get hget hrecord
  | @published _ session connectedAtMs _ existing _ _ store _ htask hwrite =>
    cases existing with
    | none =>
      -- where no record is stored, no task writes on one
      obtain ⟨hnone, row, hget, hpayload, -, hversion⟩ := writePayload_create hwrite
      have hworld : Fenced sandboxId { world with store } := by
        intro t ht hwrites
        obtain ⟨⟨row', hrow'⟩, -⟩ := h t ht hwrites
        cases hnone.symm.trans hrow'
      exact hworld.become (expected_of_get hget ⟨hpayload, hversion⟩)
    | some record => exact h.write hwrite fun row hpayload hversion => ⟨hpayload, hversion⟩
  | renewed htask hwrite => exact h.write hwrite fun row hpayload hversion => ⟨hpayload, hversion⟩
  | ownRead htask =>
    have hheld := h _ (List.mem_of_getElem? htask) rfl
    exact h.become fun _ => hheld
  | deleted htask hdelete => cases hkept
  | quiet htask hquiet hwritten hdeletes =>
    cases hquiet with
    | failed | retry => exact h.become nofun
    | keep guard record =>
      have hheld := h _ (List.mem_of_getElem? htask) rfl
      exact h.become fun _ => hheld
  | idle hwritten hdeletes => exact h

/-- The record a task writes on is the stored one, if the version is. -/
theorem Fenced.expects_stored (ht : t ∈ world.tasks) (hwrites : t.writesOn = true)
    (hold : world.stored sandboxId = some old)
    (hversion : ∀ row, t.Expects sandboxId row → old.resourceVersion = row.resourceVersion) :
    t.Expects sandboxId old := by
  obtain ⟨-, row, hexpects, hid, hfollows⟩ := h t ht hwrites
  obtain ⟨hmem, hsame⟩ := Objects.get_eq_some_iff.mp hold
  obtain rfl := (hfollows old hmem (hsame.trans hid.symm)).2 (hversion row hexpects)
  exact hexpects

end Fenced

/-! ## Supersession -/

section Supersedes
variable {sandboxId : String} {ttlMs : Nat} {sessions : Set Session} {world world' : World}
  {call : Call} {reply : Reply}

def SameSession (sandboxId : String) (world : World) (session : Session) : Prop :=
  ∃ row, world.stored sandboxId = some row ∧ row.payload.sessionId = session.sessionId

/-- What a call may do to the record: a write creates it, rewrites the session's own, or
replaces the very record that was read and that the session may replace. -/
structure Supersedes (sandboxId : String) (ttlMs : Nat) (world : World) (reply : Reply) : Prop where
  published : ∀ session existing readAtMs, reply = .published session existing readAtMs →
    world.stored sandboxId = none ∨ SameSession sandboxId world session ∨
    ∃ record, existing = some record ∧ read world.store sandboxId = .ok (some record) ∧
      canSupersede record session ttlMs readAtMs = true
  renewed : ∀ session, reply = .renewed session → SameSession sandboxId world session
  released : ∀ session, reply = .released session true → SameSession sandboxId world session

theorem supersedes_of_not_written (hwritten : reply.written = none)
    (hdeletes : reply.deletes = false) :
    Supersedes sandboxId ttlMs world reply := by
  refine ⟨?_, ?_, ?_⟩
  · rintro session existing readAtMs rfl
    cases hwritten
  · rintro session rfl
    cases hwritten
  · rintro session rfl
    cases hdeletes

theorem read_stored (h : Members sandboxId ttlMs sessions world)
    (hrow : world.stored sandboxId = some row) :
    read world.store sandboxId = .ok (some (recordOf row)) := by
  obtain ⟨hname, session, -, connectedAtMs, hpayload⟩ := h.stored row hrow
  exact read_of_get hrow hname (by rw [hpayload]; rfl)

/-- The record that a session replaces is the one it read. -/
theorem replaced_of_published {record : OwnerRecord} (hfenced : Fenced sandboxId world)
    (htask : world.tasks[task]? =
      some (.writing session connectedAtMs attempts (some record) readAtMs))
    (hold : world.stored sandboxId = some old)
    (hversion : old.resourceVersion = record.resourceVersion) :
    recordOf old = record := by
  refine hfenced.expects_stored (List.mem_of_getElem? htask) rfl hold fun row hexpects => ?_
  have hrecord : recordOf row = record := hexpects
  rw [hversion, ← hrecord]
  rfl

theorem owner_of_renewed (hfenced : Fenced sandboxId world)
    (htask : world.tasks[task]? = some (.holding guard)) (hold : world.stored sandboxId = some old)
    (hversion : old.resourceVersion = guard.resourceVersion) :
    old.payload = guard.session.payload sandboxId guard.connectedAtMs := by
  have hexpects := hfenced.expects_stored (List.mem_of_getElem? htask) rfl hold
    fun row hexpects => hversion.trans (And.right hexpects).symm
  exact And.left hexpects

/-- Ownership moves by supersession while versions name records and nothing is deleted, and
where all sessions have one id, since then there is no other session. -/
theorem supersedes_of_took (hmembers : Members sandboxId ttlMs sessions world)
    (hsafe : (Fenced sandboxId world ∧ reply.deletes = false) ∨
      ∀ a ∈ sessions, ∀ b ∈ sessions, a.sessionId = b.sessionId)
    (htook : Took sandboxId ttlMs world call world' reply) :
    Supersedes sandboxId ttlMs world reply := by
  have hsame : (∀ a ∈ sessions, ∀ b ∈ sessions, a.sessionId = b.sessionId) →
      ∀ {task : Nat} {t : Task}
      {session : Session} {old : ObjectRecord OwnerPayload}, world.tasks[task]? = some t →
        t.session = some session →
      world.stored sandboxId = some old → SameSession sandboxId world session := by
    intro hone task t session old htask hs hold
    obtain ⟨-, owner, howner, connectedAtMs, hpayload⟩ := hmembers.stored old hold
    refine ⟨old, hold, ?_⟩
    rw [hpayload]
    exact hone owner howner session (hmembers.tasks t (List.mem_of_getElem? htask) session hs)
  cases htook with
  | started | decided | ownRead => exact supersedes_of_not_written rfl rfl
  | @published _ session connectedAtMs attempts existing readAtMs _ _ _ htask hwrite =>
    refine ⟨?_, nofun, nofun⟩
    rintro _ _ _ ⟨⟩
    cases existing with
    | none => exact .inl (writePayload_create hwrite).1
    | some record =>
      obtain ⟨⟨old, -, hold, hversion, -⟩, -⟩ := writePayload_match hwrite
      rcases hsafe with ⟨hfenced, -⟩ | hone
      · have hrecord := replaced_of_published hfenced htask hold hversion
        refine .inr
          (.inr ⟨record, rfl, ?_, hmembers.accepted _ _ _ _ _ (List.mem_of_getElem? htask)⟩)
        rw [read_stored hmembers hold, hrecord]
      · exact .inr (.inl (hsame hone htask rfl hold))
  | @renewed _ guard _ _ _ htask hwrite =>
    refine ⟨nofun, ?_, nofun⟩
    rintro _ ⟨⟩
    obtain ⟨⟨old, -, hold, hversion, -⟩, -⟩ := writePayload_match hwrite
    rcases hsafe with ⟨hfenced, -⟩ | hone
    · exact ⟨old, hold, by rw [owner_of_renewed hfenced htask hold hversion]; rfl⟩
    · exact hsame hone htask rfl hold
  | deleted htask hdelete =>
    refine ⟨nofun, nofun, ?_⟩
    rintro _ ⟨⟩
    obtain ⟨old, hold, -⟩ := Objects.get_deleteIf hdelete
    exact hsame (hsafe.resolve_left fun h => absurd h.2 nofun) htask rfl hold
  | quiet _ _ hwritten hdeletes
  | idle hwritten hdeletes => exact supersedes_of_not_written hwritten hdeletes

end Supersedes

end OpenShell.Server.SupervisorOwner
