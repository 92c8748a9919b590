import OpenShell.Policy.Merge.Rule
import OpenShell.Policy.Validate

/-!
# Applying operations

`merge_policy`: validate and canonicalize the input, apply the operations in
request order, refuse new conflicts between inspection contracts, and validate
and canonicalize the result. An error leaves no result, so a failed merge changes
nothing.
-/

namespace OpenShell.Policy

/-! ## Checking an operation -/

def L7RuleTarget.validate (target : L7RuleTarget) (operationIndex : Nat) :
    Except PolicyMergeError Unit := do
  let invalid (reason : String) := PolicyMergeError.invalidL7Target operationIndex reason
  rejectIf (isEmptyStr (trim target.ruleName) ∨ trim target.ruleName ≠ target.ruleName ∨
      target.ruleName.toList.any isControl)
    (invalid "rule_name must name a sandbox-owned rule")
  rejectIf (isProviderRuleName target.ruleName)
    (invalid "provider-owned rules cannot receive L7 appends")
  rejectIf (isEmptyStr target.host ∨
      (target.host.toList.any fun c =>
        isWhitespace c || isControl c || c == '/' || c == '?' || c == '#' || c == '@') ∨
      hostWildcardShapeInvalid target.host)
    (invalid "host must be a nonempty endpoint host selector")
  rejectIf (target.ports.isEmpty ∨ target.ports.any fun port => !(1 ≤ port && port ≤ 65535))
    (invalid "ports must declare a nonempty set in 1..=65535")
  match target.binaries with
  | .any => .ok ()
  | .restricted binaries =>
    rejectIf (binaries.isEmpty ∨ binaries.any fun binary => isEmptyStr (trim binary.path))
      (invalid ("restricted binary scope must contain nonempty binary paths; use Any for an " ++
        "any-binary rule"))

def validateOperation (operationIndex : Nat) (operation : PolicyMergeOp) :
    Except PolicyMergeError Unit :=
  match operation with
  | .addRule ruleName rule => do
    rejectIf (isEmptyStr (trim ruleName)) .missingRuleNameForAddRule
    rejectIf rule.endpoints.isEmpty (.emptyAddRuleEndpoints operationIndex ruleName)
  | .addAllowRules target _ | .addDenyRules target _ => target.validate operationIndex
  | _ => .ok ()

def restrictiveDefaultPolicy : SandboxPolicy where
  version := 1
  filesystem := some
    { includeWorkdir := true
      readOnly := ["/bin", "/usr", "/lib", "/proc", "/dev/urandom", "/etc", "/var/log"]
      readWrite := ["/tmp", "/dev/null"] }
  landlock := some { compatibility := "best_effort" }

/-- Validate a rule on its own, and return its canonical form. -/
def validateRuleFragment (ext : External) (ruleName : String) (rule : NetworkPolicyRule) :
    Except (List PolicyViolation) NetworkPolicyRule := do
  let canonical ←
    validateAndCanonicalizeSandboxPolicy ext (insertRule restrictiveDefaultPolicy ruleName rule)
  -- canonicalization keeps the key (`validateRuleFragment_eq_ok`)
  return canonical.networkPolicies[ruleName]?.getD rule

def validateAndCanonicalizeOperation (ext : External) (operationIndex : Nat)
    (operation : PolicyMergeOp) : Except PolicyMergeError PolicyMergeOp :=
  match operation with
  | .addRule ruleName rule =>
    match validateRuleFragment ext ruleName rule with
    | .ok rule => .ok (.addRule ruleName rule)
    | .error violations => .error (.invalidOperationPolicy operationIndex violations)
  | operation => .ok operation

/-! ## L7 targets -/

def endpointMatchesHostPort (endpoint : NetworkEndpoint) (host : String) (port : Nat) : Bool :=
  eqIgnoreAsciiCase endpoint.host host && (canonicalPorts endpoint).contains port

/-- Endpoints a target may mean: host, a common port, and the path if given. -/
def isL7Candidate (target : L7RuleTarget) (endpoint : NetworkEndpoint) : Bool :=
  eqIgnoreAsciiCase endpoint.host target.host &&
    ((canonicalPorts endpoint).any fun port => target.ports.contains port) &&
    target.path.all fun path => endpoint.path == path

def l7BinaryPaths (binaries : List NetworkBinary) : List String :=
  sortDedup (binaries.map (·.path))

def l7BinaryScopePaths : L7BinaryScope → List String
  | .any => []
  | .restricted binaries => l7BinaryPaths binaries

/-- The rule and the one endpoint a target means, once the caller acknowledged
every binary and port it shares. -/
def resolveL7Target (policy : SandboxPolicy) (target : L7RuleTarget) :
    Except PolicyMergeError (NetworkPolicyRule × Nat × NetworkEndpoint) :=
  let notFound := PolicyMergeError.l7TargetNotFound target.ruleName target.host target.ports
    target.path
  match policy.networkPolicies[target.ruleName]? with
  | none => .error notFound
  | some rule =>
    match rule.endpoints.zipIdx.filter fun entry => isL7Candidate target entry.1 with
    | [] => .error notFound
    | [(endpoint, index)] => do
      let expected := l7BinaryPaths rule.binaries
      let declared := l7BinaryScopePaths target.binaries
      rejectIf ((rule.binaries.isEmpty != (target.binaries == .any)) ∨ expected ≠ declared)
        (.l7BinaryScopeMismatch target.ruleName
          (if expected.isEmpty then [anyBinaryScope] else expected)
          (if target.binaries = .any then declared ++ [anyBinaryScope] else declared))
      let expectedPorts := sortDedup (canonicalPorts endpoint)
      let declaredPorts := sortDedup target.ports
      rejectIf (expectedPorts ≠ declaredPorts)
        (.l7PortScopeMismatch target.ruleName target.host expectedPorts declaredPorts)
      return (rule, index, endpoint)
    | candidates =>
      .error (.ambiguousL7Target target.ruleName target.host target.ports
        ((candidates.map fun entry => entry.1.path).insertionSort (· ≤ ·)))

def ensureMethodPathEndpoint (endpoint : NetworkEndpoint) (host : String) (port : Nat) :
    Except PolicyMergeError Unit := do
  rejectIf (isEmptyStr endpoint.protocol) (.endpointHasNoL7Inspection host port)
  rejectIf (!(endpoint.protocol == "rest" || endpoint.protocol == "websocket"))
    (.unsupportedEndpointProtocol host port endpoint.protocol)

/-- Store an endpoint of a rule back. -/
def setEndpoint (policy : SandboxPolicy) (key : String) (rule : NetworkPolicyRule) (index : Nat)
    (endpoint : NetworkEndpoint) : SandboxPolicy :=
  insertRule policy key { rule with endpoints := rule.endpoints.set index endpoint }

/-! ## Removal -/

/-- The endpoint without the port; nothing if that was its only one. -/
def removePort (host : String) (port : Nat) (endpoint : NetworkEndpoint) :
    Option NetworkEndpoint :=
  if !endpointMatchesHostPort endpoint host port then some endpoint
  else
    let remaining := sortDedup ((canonicalPorts endpoint).filter (· ≠ port))
    if remaining.isEmpty then none else some (withPorts endpoint remaining)

/-- A rule left without endpoints goes. -/
def removeFromRule (host : String) (port : Nat) (rule : NetworkPolicyRule) :
    Option NetworkPolicyRule :=
  let endpoints := rule.endpoints.filterMap (removePort host port)
  if endpoints.isEmpty then none else some { rule with endpoints }

def removeEndpoint (policy : SandboxPolicy) (ruleName : Option String) (host : String)
    (port : Nat) : SandboxPolicy :=
  { policy with
    networkPolicies := policy.networkPolicies.filterMap fun key rule =>
      if ruleName.all (· == key) then removeFromRule host port rule else some rule }

/-- Removing the last named binary removes the rule: an empty list would widen it
to every binary. -/
def removeBinary (policy : SandboxPolicy) (operationIndex : Nat) (ruleName binaryPath : String) :
    Except PolicyMergeError SandboxPolicy :=
  match policy.networkPolicies[ruleName]? with
  | none => .ok policy
  | some rule =>
    if rule.binaries.isEmpty then
      .error (.cannotRemoveBinaryFromAnyBinaryScope operationIndex ruleName binaryPath)
    else
      let binaries := rule.binaries.filter fun binary => binary.path ≠ binaryPath
      if rule.binaries.length ≠ binaries.length ∧ binaries.isEmpty then
        .ok { policy with networkPolicies := policy.networkPolicies.erase ruleName }
      else .ok (insertRule policy ruleName { rule with binaries })

/-! ## One operation -/

def applyOperation (policy : SandboxPolicy) (operationIndex : Nat) :
    PolicyMergeOp → Except PolicyMergeError (SandboxPolicy × List PolicyMergeWarning)
  | .addRule ruleName rule => addRule policy operationIndex ruleName rule
  | .removeEndpoint ruleName host port => .ok (removeEndpoint policy ruleName host port, [])
  | .removeRule ruleName =>
    .ok ({ policy with networkPolicies := policy.networkPolicies.erase ruleName }, [])
  | .addDenyRules target denyRules => do
    let (rule, index, endpoint) ← resolveL7Target policy target
    let port := target.ports.headD 0
    ensureMethodPathEndpoint endpoint target.host port
    rejectIf (endpoint.access = 0 ∧ endpoint.rules.isEmpty)
      (.endpointHasNoAllowBase target.host port)
    let endpoint := { endpoint with denyRules := appendUnique endpoint.denyRules denyRules }
    return (setEndpoint policy target.ruleName rule index endpoint, [])
  | .addAllowRules target rules => do
    let (rule, index, endpoint) ← resolveL7Target policy target
    let port := target.ports.headD 0
    ensureMethodPathEndpoint endpoint target.host port
    let (endpoint, warnings) ← expandExistingAccess endpoint target.host port
    let endpoint := { endpoint with rules := appendUnique endpoint.rules rules }
    return (setEndpoint policy target.ruleName rule index endpoint, warnings)
  | .removeBinary ruleName binaryPath => do
    let policy ← removeBinary policy operationIndex ruleName binaryPath
    return (policy, [])

/-! ## Inspection contracts -/

/-- The inspection contract an endpoint establishes for its host and port. -/
structure EffectiveInspection where
  protocol : String
  mcp : Option EffectiveMcpContract

/-- What one inspected endpoint establishes, by host and port. -/
def endpointInspections (endpoint : NetworkEndpoint) :
    List ((String × Nat) × EffectiveInspection × String) :=
  if isEmptyStr endpoint.protocol then []
  else
    let inspection : EffectiveInspection :=
      { protocol := toAsciiLowercase endpoint.protocol, mcp := effectiveMcpContract endpoint }
    (canonicalPorts endpoint).map fun port =>
      ((toAsciiLowercase endpoint.host, port), inspection, describeMcpContract endpoint)

/-- MCP shares a host and port only with MCP under the same contract. -/
def inspectionsConflict (found : List (EffectiveInspection × String)) : Bool :=
  match found.filterMap (·.1.mcp) with
  | [] => false
  | first :: rest => found.any (·.1.mcp.isNone) || rest.any (· != first)

/-- Conflicting contracts by host and port, in the order of both. -/
def conflictingInspectionContracts (policy : SandboxPolicy) :
    List ((String × Nat) × List String) :=
  let entries := policy.networkPolicies.toList.flatMap fun (_, rule) =>
    rule.endpoints.flatMap endpointInspections
  (sortDedup (entries.map (·.1.1))).flatMap fun host =>
    (sortDedup ((entries.filter (·.1.1 == host)).map (·.1.2))).filterMap fun port =>
      let found := (entries.filter (·.1 == (host, port))).map (·.2)
      if inspectionsConflict found then some ((host, port), sortDedup (found.map (·.2))) else none

def ensureNoNewInspectionConflicts (merged : SandboxPolicy)
    (before : List ((String × Nat) × List String)) : Except PolicyMergeError Unit :=
  forM (conflictingInspectionContracts merged) fun ((host, port), contracts) =>
    rejectIf (!(before.lookup (host, port)).any fun prior => contracts.all prior.contains)
      (.conflictingInspectionContracts host port contracts)

/-! ## A merge -/

/-- Validate and apply in request order. -/
def applyOperations (ext : External) (policy : SandboxPolicy) (operationIndex : Nat) :
    List PolicyMergeOp → Except PolicyMergeError (SandboxPolicy × List PolicyMergeWarning)
  | [] => .ok (policy, [])
  | operation :: rest => do
    validateOperation operationIndex operation
    let operation ← validateAndCanonicalizeOperation ext operationIndex operation
    let (policy, warnings) ← applyOperation policy operationIndex operation
    let (policy, more) ← applyOperations ext policy (operationIndex + 1) rest
    return (policy, warnings ++ more)

def mergePolicy (ext : External) (policy : SandboxPolicy) (operations : List PolicyMergeOp) :
    Except PolicyMergeError PolicyMergeResult := do
  let canonicalInput ←
    (validateAndCanonicalizeSandboxPolicy ext policy).mapError .invalidInputPolicy
  let conflictsBefore := conflictingInspectionContracts canonicalInput
  let (merged, warnings) ← applyOperations ext canonicalInput 0 operations
  ensureNoNewInspectionConflicts merged conflictsBefore
  let merged ← (validateAndCanonicalizeSandboxPolicy ext merged).mapError .invalidMergedPolicy
  return { policy := merged, warnings, changed := merged ≠ canonicalInput }

end OpenShell.Policy
