import OpenShell.Server.ConfigSessionRun

/-!
# A delivered configuration at the supervisor

`apply_delivered_sandbox`, the supervisor's side of a push session: what an update
does to the application routes and to the static credentials, and what is answered.
How the policy runtime reconciles is a parameter of each call, with the credentials
it leaves. An answer that does not apply the configuration has suspended the routes,
so it is not without effect: going back to the configuration before it takes another
update.
-/

namespace OpenShell.Supervisor

open Server.ConfigDelivery

/-- Names a provider environment. -/
structure EnvironmentIdentity where
  attachmentEpoch : String
  revision : Nat
  policyHash : String
  deriving DecidableEq

def EnvironmentIdentity.fromSettings (snapshot : SandboxConfigSnapshot) : EnvironmentIdentity :=
  ⟨snapshot.providerAttachmentEpoch, snapshot.providerEnvRevision, snapshot.policyHash⟩

/-- Routes of the application listener. -/
inductive AppRoutes
  | suspended
  | installed (fingerprint : ConfigFingerprint)
  deriving DecidableEq

/-- What is known of the provider environment, and whether static credentials are withdrawn. -/
structure Credentials where
  identity : EnvironmentIdentity
  reason : ProviderReadinessReason
  revoked : Bool
  deriving DecidableEq

/-- The last rejected configuration. A rejection does not acknowledge. -/
structure RejectedStreamSandbox where
  configurationInstanceId : String
  requestedRevision : SandboxConfigRevision
  environment : EnvironmentIdentity
  error : String
  failureMode : Nat
  outcome : ConfigApplyOutcome
  rejects : outcomeAcknowledgesRevision outcome = false
  deriving DecidableEq

structure ConfigRuntime where
  reloadsGatewayPolicy : Bool
  appliedRevision : Option SandboxConfigRevision
  rejectedSandbox : Option RejectedStreamSandbox
  appRoutes : Option AppRoutes
  credentials : Credentials
  deriving DecidableEq

/-- How the policy runtime took a configuration. -/
inductive Reconciled
  | unchanged
  | applied
  | rejected
  | failed
  deriving DecidableEq

def sandboxConfigRevision (snapshot : SandboxConfigSnapshot) : SandboxConfigRevision :=
  (ConfigFingerprint.of snapshot).revision

def ConfigRuntime.suspend (runtime : ConfigRuntime) : ConfigRuntime :=
  { runtime with appRoutes := runtime.appRoutes.map fun _ => .suspended }

def RejectedStreamSandbox.isFor (rejected : RejectedStreamSandbox)
    (snapshot : SandboxConfigSnapshot) : Bool :=
  rejected.configurationInstanceId = snapshot.configurationInstanceId ∧
  rejected.requestedRevision = sandboxConfigRevision snapshot ∧
  rejected.environment = .fromSettings snapshot ∧
  rejected.error = snapshot.configurationError ∧
  rejected.failureMode = snapshot.policyValidationFailureMode

def ConfigRuntime.needsEnvironment (runtime : ConfigRuntime)
    (identity : EnvironmentIdentity) : Bool :=
  runtime.credentials.reason ≠ .unspecified ∨ runtime.credentials.identity ≠ identity

def providerEnvironmentIsInstallable : ProviderReadinessReason → Bool
  | .unspecified | .credentialsWithheld | .credentialExpired => true
  | _ => false

/-- An environment that cannot be installed: static credentials are withdrawn. -/
def ConfigRuntime.revokeProviderEnvironment (runtime : ConfigRuntime)
    (identity : EnvironmentIdentity) (reason : ProviderReadinessReason) : ConfigRuntime :=
  { runtime with credentials := ⟨identity, reason, true⟩ }

section
/- Whether an environment decodes, and whether its bindings validate. -/
variable (decodes prepares : ProviderEnvironmentSnapshot → Bool)

/-- `none` is a prepared environment. -/
def prepareDeliveredProvider (environment : ProviderEnvironmentSnapshot)
    (desired : EnvironmentIdentity) :
    Option ProviderReadinessReason :=
  if (⟨environment.providerAttachmentEpoch, environment.providerEnvRevision,
    environment.policyHash⟩ :
      EnvironmentIdentity) = desired then
    if !decodes environment then some .credentialInstallFailed
    else if !providerEnvironmentIsInstallable environment.readinessReason then
      some environment.readinessReason
    else if prepares environment then none
    else some .credentialInstallFailed
  else some .snapshotMismatch

/-- The answer to a configuration the policy runtime rejected. -/
def rejectionOutcome (runtime : ConfigRuntime) (snapshot : SandboxConfigSnapshot)
    (consumesProvider failClosed : Bool) :
    ConfigApplyOutcome :=
  match runtime.appliedRevision.filter fun _ => !failClosed with
  | some retained =>
    if retained = sandboxConfigRevision snapshot ∧ !consumesProvider ∧
      snapshot.configurationAdmitted then .degraded
    else .failedRetainedLastKnownGood
  | none => .failedClosed

/-- An inadmissible configuration is never enforced. -/
theorem rejectionOutcome_rejects (runtime : ConfigRuntime) {snapshot : SandboxConfigSnapshot}
    (consumesProvider failClosed : Bool) (h : snapshot.configurationAdmitted = false) :
    outcomeAcknowledgesRevision
      (rejectionOutcome runtime snapshot consumesProvider failClosed) = false := by
  rw [rejectionOutcome]
  split
  · rw [if_neg (by simp [h])]
    rfl
  · rfl

/-- The part of an update that goes through the policy runtime. -/
def reconcileDelivered (runtime : ConfigRuntime) (snapshot : SandboxConfigSnapshot)
    (consumesProvider : Bool)
    (reconciled : Reconciled) (failClosed : Bool) : ConfigRuntime × ConfigApplyOutcome :=
  match reconciled with
  | .failed => (runtime.suspend, .failedClosed)
  | .rejected =>
    let outcome := rejectionOutcome runtime snapshot consumesProvider failClosed
    if h : snapshot.configurationAdmitted = false then
      ({ runtime.suspend with
          rejectedSandbox := some {
            configurationInstanceId := snapshot.configurationInstanceId
            requestedRevision := sandboxConfigRevision snapshot
            environment := .fromSettings snapshot
            error := snapshot.configurationError
            failureMode := snapshot.policyValidationFailureMode
            outcome := outcome
            rejects := rejectionOutcome_rejects runtime consumesProvider failClosed h } }, outcome)
    else (runtime.suspend, outcome)
  | .unchanged | .applied =>
    ({ runtime with
        appRoutes := runtime.appRoutes.map fun _ => .installed (.of snapshot)
        rejectedSandbox := none
        appliedRevision := if runtime.reloadsGatewayPolicy then
          some (sandboxConfigRevision snapshot) else runtime.appliedRevision },
      if !runtime.reloadsGatewayPolicy then .retainedLocalOverride
      else if reconciled = .unchanged then .ignoredDuplicate else .applied)

/-- How one call reconciles: the outcome, the credentials it leaves, and whether policy then fails
closed. -/
structure Reconciliation where
  reconciled : Reconciled
  credentials : Credentials
  failClosed : Bool

def applyDeliveredSandbox (runtime : ConfigRuntime) (snapshot : SandboxConfigSnapshot)
    (environment : ProviderEnvironmentSnapshot) (how : Reconciliation) :
    ConfigRuntime × ConfigApplyOutcome :=
  let desired := EnvironmentIdentity.fromSettings snapshot
  let reconcile (runtime : ConfigRuntime) (consumesProvider : Bool) :=
    reconcileDelivered { runtime with credentials := how.credentials }
      snapshot consumesProvider how.reconciled
      how.failClosed
  if !snapshot.configurationAdmitted then
    let runtime := runtime.suspend
    if !runtime.reloadsGatewayPolicy then (runtime, .failedRetainedLastKnownGood)
    else
      -- a redelivery does not quarantine the runtime again
      match runtime.rejectedSandbox.filter (·.isFor snapshot) with
      | some rejected => (runtime, rejected.outcome)
      | none => reconcile runtime false
  else if !runtime.needsEnvironment desired then reconcile runtime false
  else
    match prepareDeliveredProvider decodes prepares environment desired with
    | none => reconcile runtime true
    | some reason =>
      ((runtime.revokeProviderEnvironment desired reason).suspend,
        if runtime.appliedRevision.isSome then .failedRetainedLastKnownGood else .failedClosed)

end

/-! ## Going back to an acknowledged configuration -/

/-- A configuration of a revision, with its environment. -/
def exampleConfig (revision : Nat) : SupervisorConfig where
  sandboxConfig := {
    configRevision := revision, version := 1, policySource := 1, globalPolicyVersion :=
      0, settingsRevision := 0
    providerEnvRevision := revision, providerAttachmentEpoch := "epoch", policyHash :=
      "hash", policy := none
    settings := [], supervisorMiddlewareServices := [], configurationInstanceId := "instance"
    configurationAdmitted := true, configurationError := "", policyValidationFailureMode := 0 }
  providerEnvironment := ⟨revision, "epoch", "hash", .unspecified, []⟩

/-- A supervisor that has installed the first configuration. -/
def exampleRuntime : ConfigRuntime where
  reloadsGatewayPolicy := true
  appliedRevision := some (sandboxConfigRevision (exampleConfig 1).sandboxConfig)
  rejectedSandbox := none
  appRoutes := some (.installed (.of (exampleConfig 1).sandboxConfig))
  credentials := ⟨.fromSettings (exampleConfig 1).sandboxConfig, .unspecified, false⟩

/-- The second configuration, whose environment does not decode. -/
def rejectSecond : ConfigRuntime × ConfigApplyOutcome :=
  applyDeliveredSandbox (fun _ => false) (fun _ => true) exampleRuntime
    (exampleConfig 2).sandboxConfig
    (exampleConfig 2).providerEnvironment ⟨.applied, exampleRuntime.credentials, false⟩

/-- The supervisor rejected the second configuration and has no routes and no static credentials
any more; the gateway then suppresses the first one, which would bring them back. -/
theorem not_suppressesSafely_rejected :
    rejectSecond.1.appRoutes = some .suspended ∧ rejectSecond.1.credentials.revoked = true ∧
    rejectSecond.2 = .failedRetainedLastKnownGood ∧
      ConfigApplyOutcome.tryFrom 6 = some rejectSecond.2 ∧
    ¬SuppressesSafely (fun _ _ => 0) (exampleConfig 1)
      (goBack (exampleConfig 2) (1, true) (6, true) ++ [.deliver (exampleConfig 1)]) := by
  refine ⟨by decide, by decide, by decide, by decide, ?_⟩
  exact not_suppressesSafely_goBack (by decide) (by decide) ⟨rfl, by decide, by decide⟩ (by
    rintro ⟨-, hacks⟩
    revert hacks
    decide)

end OpenShell.Supervisor
