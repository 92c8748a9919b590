/-!
# Delivery of configuration to a supervisor session

`ConfigSessionState`, the gateway's side of one push session. One update is in
flight at a time, starting with the bootstrap. A configuration built meanwhile is
held, and only the newest one. The gateway remembers the configuration the supervisor
acknowledged last, by its fingerprint, and does not send it again.

How long an encoded message is comes from the protobuf library and is a parameter.
-/

namespace OpenShell.Server.ConfigDelivery

/-- Encoded contents that the delivery does not look into. -/
abbrev Encoded := List UInt8

structure SandboxConfigRevision where
  configRevision : Nat
  policyVersion : Nat
  policySource : Nat
  globalPolicyVersion : Nat
  settingsRevision : Nat
  deriving DecidableEq

structure SandboxConfigSnapshot where
  configRevision : Nat
  version : Nat
  policySource : Nat
  globalPolicyVersion : Nat
  settingsRevision : Nat
  providerEnvRevision : Nat
  providerAttachmentEpoch : String
  policyHash : String
  policy : Option Encoded
  settings : List (String × Encoded)
  supervisorMiddlewareServices : List Encoded
  configurationInstanceId : String
  configurationAdmitted : Bool
  configurationError : String
  policyValidationFailureMode : Nat
  deriving DecidableEq

inductive ProviderReadinessReason
  | unspecified
  | waitingForSupervisor
  | waitingForCredentials
  | waitingForPolicy
  | waitingForProcess
  | unsupportedSupervisor
  | credentialsWithheld
  | credentialInstallFailed
  | policyActivationFailed
  | processInstallFailed
  | supervisorDisconnected
  | supervisorLeaseExpired
  | desiredStateChanged
  | credentialExpired
  | localPolicy
  | snapshotMismatch
  deriving DecidableEq

structure ProviderEnvironmentSnapshot where
  providerEnvRevision : Nat
  providerAttachmentEpoch : String
  policyHash : String
  readinessReason : ProviderReadinessReason
  environment : Encoded
  deriving DecidableEq

structure SupervisorConfig where
  sandboxConfig : SandboxConfigSnapshot
  providerEnvironment : ProviderEnvironmentSnapshot
  deriving DecidableEq

/-- Identifies a configuration the supervisor already has. -/
structure ConfigFingerprint where
  revision : SandboxConfigRevision
  providerEnvRevision : Nat
  providerAttachmentEpoch : String
  policyHash : String
  deriving DecidableEq

def ConfigFingerprint.of (snapshot : SandboxConfigSnapshot) : ConfigFingerprint where
  revision := {
    configRevision := snapshot.configRevision
    policyVersion := snapshot.version
    policySource := snapshot.policySource
    globalPolicyVersion := snapshot.globalPolicyVersion
    settingsRevision := snapshot.settingsRevision }
  providerEnvRevision := snapshot.providerEnvRevision
  providerAttachmentEpoch := snapshot.providerAttachmentEpoch
  policyHash := snapshot.policyHash

inductive ConfigApplyOutcome
  | unspecified
  | applied
  | ignoredDuplicate
  | ignoredStale
  | retainedLocalOverride
  | degraded
  | failedRetainedLastKnownGood
  | failedClosed
  | unsupported
  deriving DecidableEq

/-- The outcome of a number on the wire. -/
def ConfigApplyOutcome.tryFrom : Int → Option ConfigApplyOutcome
  | 0 => some .unspecified
  | 1 => some .applied
  | 2 => some .ignoredDuplicate
  | 3 => some .ignoredStale
  | 4 => some .retainedLocalOverride
  | 5 => some .degraded
  | 6 => some .failedRetainedLastKnownGood
  | 7 => some .failedClosed
  | 8 => some .unsupported
  | _ => none

def outcomeAcknowledgesRevision : ConfigApplyOutcome → Bool
  | .applied | .ignoredDuplicate | .retainedLocalOverride | .degraded => true
  | _ => false

inductive DeliveryDisposition
  | coalesced
  | suppressedUnchanged
  | payloadTooLarge
  deriving DecidableEq

structure ConfigUpdate where
  updateId : Nat
  sandboxConfig : SandboxConfigSnapshot
  providerEnvironment : ProviderEnvironmentSnapshot
  deriving DecidableEq

structure InFlightConfigUpdate where
  updateId : Nat
  fingerprint : ConfigFingerprint
  bootstrap : Bool
  deriving DecidableEq

structure CompletedConfigUpdate where
  updateId : Nat
  fingerprint : ConfigFingerprint
  outcome : ConfigApplyOutcome
  bootstrap : Bool
  deriving DecidableEq

structure ConfigSessionState where
  inFlight : Option InFlightConfigUpdate
  /-- Newest configuration built while an update was in flight. -/
  pending : Option SupervisorConfig
  acknowledged : Option ConfigFingerprint
  deriving DecidableEq

def ConfigSessionState.new : ConfigSessionState := ⟨none, none, none⟩

def maxSupervisorStreamMessageBytes : Nat := 9 * 1024 * 1024

/-- Leaves 1 MiB below the supervisor's receive limit. -/
def maxSupervisorConfigMessageBytes : Nat := maxSupervisorStreamMessageBytes - 1024 * 1024

/-- The environment of a configuration that is delivered without one. -/
def unresolvedProviderEnvironment (sandbox : SandboxConfigSnapshot) :
    ProviderEnvironmentSnapshot where
  providerEnvRevision := sandbox.providerEnvRevision
  providerAttachmentEpoch := sandbox.providerAttachmentEpoch
  policyHash := sandbox.policyHash
  readinessReason := .credentialInstallFailed
  environment := []

/-- What is left of a configuration whose message has too many bytes. -/
def tooLarge (snapshot : SandboxConfigSnapshot) (size : Nat) : SandboxConfigSnapshot :=
  { snapshot with
    policy := none
    settings := []
    supervisorMiddlewareServices := []
    configurationAdmitted := false
    configurationError :=
      "configuration_too_large: encoded configuration is " ++ toString size ++
      " bytes; maximum is " ++
        toString maxSupervisorConfigMessageBytes ++ " bytes" }

section
/- The length of the message that carries an update. -/
variable (messageLen : SandboxConfigSnapshot → ProviderEnvironmentSnapshot → Nat)

/-- The contents an update is sent with. -/
def delivered (config : SupervisorConfig) : SupervisorConfig :=
  let size := messageLen config.sandboxConfig config.providerEnvironment
  if maxSupervisorConfigMessageBytes < size then
    let snapshot := tooLarge config.sandboxConfig size
    ⟨snapshot, unresolvedProviderEnvironment snapshot⟩
  else config

def buildConfigUpdate (updateId : Nat) (config : SupervisorConfig) (bootstrap : Bool) :
    ConfigUpdate × InFlightConfigUpdate :=
  let config := delivered messageLen config
  (⟨updateId, config.sandboxConfig, config.providerEnvironment⟩,
    ⟨updateId, .of config.sandboxConfig, bootstrap⟩)

/-- Whether an update fits a message, cut down if need be. -/
def fits (config : SupervisorConfig) : Bool :=
  messageLen (delivered messageLen config).sandboxConfig
    (delivered messageLen config).providerEnvironment ≤
    maxSupervisorConfigMessageBytes

namespace ConfigSessionState

variable (state : ConfigSessionState) (updateId : Nat)

/-- The update is returned to be queued on the session's stream. -/
def send (config : SupervisorConfig) :
    ConfigSessionState × Except DeliveryDisposition ConfigUpdate :=
  let (update, inFlight) := buildConfigUpdate messageLen updateId config false
  if fits messageLen config then ({ state with inFlight := some inFlight }, .ok update)
  else (state, .error .payloadTooLarge)

def deliver (config : SupervisorConfig) :
    ConfigSessionState × Except DeliveryDisposition ConfigUpdate :=
  if state.inFlight.isNone ∧ state.acknowledged = some (.of config.sandboxConfig) then
    (state, .error .suppressedUnchanged)
  else if state.inFlight.isSome then ({ state with pending := some config }, .error .coalesced)
  else state.send messageLen updateId config

/-- An outcome this gateway does not know did not take effect here. -/
def completedOutcome (outcome : Int) : ConfigApplyOutcome :=
  ((ConfigApplyOutcome.tryFrom outcome).filter (· ≠ .unspecified)).getD .unsupported

/-- The result answers the update in flight; `none` is an error that closes the session. -/
def complete (outcome : Int) : Option CompletedConfigUpdate :=
  state.inFlight.bind fun inFlight =>
    if inFlight.updateId ≠ updateId then none
    else some ⟨inFlight.updateId, inFlight.fingerprint, completedOutcome outcome,
      inFlight.bootstrap⟩

/-- The acknowledged configuration after a result. A degraded one is delivered again. -/
def acknowledge (completed : CompletedConfigUpdate) (acknowledge : Bool) :
    Option ConfigFingerprint :=
  if acknowledge && outcomeAcknowledgesRevision completed.outcome then
    if completed.outcome ≠ .degraded then some completed.fingerprint else none
  else state.acknowledged

/-- What became of the configuration held behind a finished update. -/
inductive Released
  | nothing
  | unchanged (config : SupervisorConfig)
  | sent (update : ConfigUpdate)
  | tooLarge

def finalize (completed : CompletedConfigUpdate) (acknowledge : Bool) :
    ConfigSessionState × Released :=
  if state.inFlight.all (·.updateId ≠ completed.updateId) then (state, .nothing)
  else
    let acknowledged := state.acknowledge completed acknowledge
    let finished : ConfigSessionState := ⟨none, none, acknowledged⟩
    match state.pending with
    | none => (finished, .nothing)
    | some pending =>
      if acknowledged = some (.of pending.sandboxConfig) then (finished, .unchanged pending)
      else
        match finished.send messageLen updateId pending with
        | (state, .ok update) => (state, .sent update)
        | (state, .error _) => (state, .tooLarge)

end ConfigSessionState

end

end OpenShell.Server.ConfigDelivery
