import OpenShell.Util.Result
import OpenShell.Util.Run

/-!
# The owner of a sandbox runtime

A runtime is owned by one supervisor process at a time, after `sandbox_auth.rs`. The
owner's term is the credential epoch the registry accepts, and its process is pinned
at the first attach. Another process takes over with a grant for a higher epoch: its
connection is staged while the owner stays active, and confirming it moves epoch and
pin. Ids are only compared, so they are numbers here; how the text of a grant names a
process is a parameter.
-/

namespace OpenShell.Sandbox

structure SandboxProtocolPrincipal where
  connectionId : Nat
  authEpoch : Nat
  deriving DecidableEq

/-- A takeover grant whose signature, sandbox and generation were checked. -/
structure VerifiedSupervisorTakeover where
  supervisorInstance : String
  authEpoch : Nat
  owner : String
  tokenId : Nat
  deriving DecidableEq

/-- A verified takeover staged on a pending connection. -/
structure StagedTakeover where
  supervisorInstanceId : Nat
  authEpoch : Nat
  owner : String
  grantId : Nat
  deriving DecidableEq

structure ActiveConnection where
  id : Nat
  epoch : Nat
  deriving DecidableEq

/-- A connection attached but not yet confirmed. -/
structure PendingConnection where
  id : Nat
  epoch : Nat
  takeover : Option StagedTakeover
  deriving DecidableEq

structure ConnectionState where
  active : Option ActiveConnection
  pending : Option PendingConnection
  highestEpoch : Option Nat
  acceptedEpoch : Nat
  supervisorInstanceId : Option Nat
  terminal : Bool
  deriving DecidableEq

inductive SandboxAuthError
  | terminalSession
  | staleCredentialEpoch
  | takeoverRequired
  | takeoverMismatch
  | wrongSupervisorInstance
  | connectionStillActive
  | connectionNotAttached
  deriving DecidableEq

/-- What a confirmation changed. -/
structure Promotion where
  replaced : Option Nat := none
  takeover : Option StagedTakeover := none
  deriving DecidableEq

/-- What an accepted attach does to the registry. -/
inductive AttachPlan
  | unchanged
  | stage (takeover : Option StagedTakeover)
  deriving DecidableEq

def ConnectionState.new (launchAuthEpoch : Nat) : ConnectionState where
  active := none
  pending := none
  highestEpoch := none
  acceptedEpoch := launchAuthEpoch
  supervisorInstanceId := none
  terminal := false

def ActiveConnection.isFor (active : ActiveConnection)
    (principal : SandboxProtocolPrincipal) : Bool :=
  active.id = principal.connectionId ∧ active.epoch = principal.authEpoch

def PendingConnection.isFor (pending : PendingConnection)
    (principal : SandboxProtocolPrincipal) : Bool :=
  pending.id = principal.connectionId ∧ pending.epoch = principal.authEpoch

/-- Reject credentials of an owner term that has been replaced. -/
def admitPrincipal (state : ConnectionState) (principal : SandboxProtocolPrincipal) :
    Except SandboxAuthError Unit :=
  rejectIf (principal.authEpoch < state.acceptedEpoch) .staleCredentialEpoch

/-! ## Planning an attach -/

section Plan
variable (parse : String → Option Nat) (state : ConnectionState)
  (principal : SandboxProtocolPrincipal)

/-- Bind a verified grant to the attach that presents it. -/
def stagedTakeover (grant : VerifiedSupervisorTakeover) (epoch supervisorInstanceId : Nat) :
    Except SandboxAuthError StagedTakeover :=
  match parse grant.supervisorInstance with
  | none => .error .takeoverMismatch
  | some granted =>
    if grant.authEpoch ≠ epoch ∨ granted ≠ supervisorInstanceId then .error .takeoverMismatch
    else .ok ⟨supervisorInstanceId, epoch, grant.owner, grant.tokenId⟩

/-- The takeover an attach stages; none for an attach of the owner. -/
def takeoverToStage (epoch supervisorInstanceId : Nat) :
    Option VerifiedSupervisorTakeover → Except SandboxAuthError (Option StagedTakeover)
  | some grant => do
    let staged ← stagedTakeover parse grant epoch supervisorInstanceId
    -- a replayed attach of the confirmed takeover is an attach of the owner it pinned
    if epoch = state.acceptedEpoch ∧ state.supervisorInstanceId = some supervisorInstanceId
      then .ok none
    else if epoch ≤ state.acceptedEpoch then .error .staleCredentialEpoch
    else .ok (some staged)
  | none =>
    if state.acceptedEpoch < epoch then .error .takeoverRequired
    else if state.supervisorInstanceId.any (· ≠ supervisorInstanceId) then
      .error .wrongSupervisorInstance
    else .ok none

/-- What the active connection says about an attach of the owner, if it decides it. -/
def planByActive : Option (Except SandboxAuthError AttachPlan) :=
  state.active.bind fun active =>
    if active.id = principal.connectionId ∧ active.epoch = principal.authEpoch then
      some (.ok .unchanged)
    else if principal.authEpoch = active.epoch then some (.error .connectionStillActive)
    else if principal.authEpoch < active.epoch then some (.error .staleCredentialEpoch)
    else none

/-- What the connection attached before says. A term below the highest one ever staged can no
longer win. -/
def planByPending (staged : Option StagedTakeover) : Except SandboxAuthError AttachPlan :=
  if state.highestEpoch.any (principal.authEpoch < ·) then .error .staleCredentialEpoch
  else
    match state.pending with
    | none => .ok (.stage staged)
    | some pending =>
      if pending.id = principal.connectionId ∧ pending.epoch = principal.authEpoch ∧
        pending.takeover = staged then
        .ok .unchanged
      else if principal.authEpoch < pending.epoch then .error .staleCredentialEpoch
      else .ok (.stage staged)

def planAttach (supervisorInstanceId : Nat)
    (takeover : Option VerifiedSupervisorTakeover) : Except SandboxAuthError AttachPlan := do
  rejectIf (state.terminal = true) .terminalSession
  rejectIf (principal.authEpoch < state.acceptedEpoch) .staleCredentialEpoch
  let staged ← takeoverToStage parse state principal.authEpoch supervisorInstanceId takeover
  match (if staged.isNone then planByActive state principal else none) with
  | some decided => decided
  | none => planByPending state principal staged

def checkAttach (supervisorInstanceId : Nat)
    (takeover : Option VerifiedSupervisorTakeover) : Except SandboxAuthError Unit :=
  (fun _ => ()) <$> planAttach parse state principal supervisorInstanceId takeover

/-! ## Operations -/

/-- Stage a connection, pinning the first process. -/
def stage (supervisorInstanceId : Nat) (staged : Option StagedTakeover) : ConnectionState :=
  { state with
    highestEpoch :=
      some ((state.highestEpoch.map (max · principal.authEpoch)).getD principal.authEpoch)
    supervisorInstanceId :=
      if staged.isNone then some (state.supervisorInstanceId.getD supervisorInstanceId) else
      state.supervisorInstanceId
    pending := some ⟨principal.connectionId, principal.authEpoch, staged⟩ }

def attach (supervisorInstanceId : Nat)
    (takeover : Option VerifiedSupervisorTakeover) :
    ConnectionState × Except SandboxAuthError (Option Nat) :=
  match planAttach parse state principal supervisorInstanceId takeover with
  | .error error => (state, .error error)
  | .ok .unchanged => (state, .ok none)
  | .ok (.stage staged) =>
    (stage state principal supervisorInstanceId staged,
      .ok ((state.pending.map (·.id)).filter (· ≠ principal.connectionId)))

end Plan

section Confirm
variable (state : ConnectionState) (principal : SandboxProtocolPrincipal)

/-- Make the pending connection the active one. A takeover moves the epoch and the pin. -/
def promote (pending : PendingConnection) : ConnectionState :=
  { state with
    acceptedEpoch := (pending.takeover.map (·.authEpoch)).getD state.acceptedEpoch
    supervisorInstanceId :=
      (pending.takeover.map (·.supervisorInstanceId)).or state.supervisorInstanceId
    active := some ⟨pending.id, pending.epoch⟩
    pending := none }

def confirm : ConnectionState × Except SandboxAuthError Promotion :=
  if state.terminal then (state, .error .terminalSession)
  else if state.active.any (·.isFor principal) then (state, .ok {})
  else
    match state.pending.filter (·.isFor principal) with
    | none => (state, .error .connectionNotAttached)
    | some pending => (promote state pending, .ok ⟨state.active.map (·.id), pending.takeover⟩)

def requireAttached : Except SandboxAuthError Unit :=
  if state.terminal then .error .terminalSession
  else if state.active.any (·.isFor principal) || state.pending.any (·.isFor principal) then .ok ()
  else .error .connectionNotAttached

def requireActive : Except SandboxAuthError Unit :=
  if state.terminal then .error .terminalSession
  else if principal.authEpoch ≠ state.acceptedEpoch then .error .staleCredentialEpoch
  else if state.active.all (fun active => !active.isFor principal) then
    .error .connectionNotAttached
  else .ok ()

/-- Remove a physical connection, and whether it was the active one. -/
def disconnect (connectionId : Nat) : ConnectionState × Bool :=
  ({ state with
      active := state.active.filter (·.id ≠ connectionId)
      pending := state.pending.filter (·.id ≠ connectionId) },
    state.active.any (·.id = connectionId))

def markTerminal : ConnectionState :=
  { state with terminal := true, active := none, pending := none }

end Confirm

end OpenShell.Sandbox
