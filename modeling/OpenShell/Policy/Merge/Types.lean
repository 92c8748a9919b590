import OpenShell.Policy.Violation
import OpenShell.Util.Text

/-!
# Merge operations, warnings and errors

The vocabulary of `merge.rs`: the operations a merge applies in request order,
the warnings it collects on the way, and the errors that stop it.
-/

namespace OpenShell.Policy

/-- Binary authorization affected by an incremental L7 rule append. -/
inductive L7BinaryScope
  | any
  | restricted (binaries : List NetworkBinary)
  deriving DecidableEq

/-- One endpoint and the complete authorization scope affected by an L7 append. -/
structure L7RuleTarget where
  ruleName : String
  host : String
  ports : List Nat
  path : Option String
  binaries : L7BinaryScope
  deriving DecidableEq

/-- A policy mutation. -/
inductive PolicyMergeOp
  | addRule (ruleName : String) (rule : NetworkPolicyRule)
  | removeEndpoint (ruleName : Option String) (host : String) (port : Nat)
  | removeRule (ruleName : String)
  | addDenyRules (target : L7RuleTarget) (denyRules : List L7DenyRule)
  | addAllowRules (target : L7RuleTarget) (rules : List L7Rule)
  | removeBinary (ruleName : String) (binaryPath : String)
  deriving DecidableEq

inductive PolicyMergeWarning
  | existingProtocolRetained (host : String) (port : Nat) (existing incoming : String)
  | existingEnforcementRetained (host : String) (port : Nat) (existing incoming : String)
  | existingTlsRetained (host : String) (port : Nat) (existing incoming : String)
  | existingAccessRetained (host : String) (port : Nat) (existing incoming : String)
  | expandedAccessPreset (host : String) (port : Nat) (access : String)
  | ignoredIncomingAccessBecauseRulesExist (host : String) (port : Nat) (incoming : String)
  | existingAnyBinaryScopeRetained (ruleName : String) (incoming : List String)
  | keptRequestedRuleNameToAvoidWidening (ruleName overlappingRuleName reason : String)
  deriving DecidableEq

inductive PolicyMergeError
  | invalidInputPolicy (violations : List PolicyViolation)
  | invalidOperationPolicy (operationIndex : Nat) (violations : List PolicyViolation)
  | missingRuleNameForAddRule
  | emptyAddRuleEndpoints (operationIndex : Nat) (ruleName : String)
  | mcpContractConflict (operationIndex : Nat) (host : String) (port : Nat)
      (existing incoming : String)
  | newBinaryWouldInheritAuthorization (operationIndex : Nat) (ruleName binaryScope host : String)
      (ports : List Nat)
  | existingBinariesWouldInheritAuthorization (operationIndex : Nat) (ruleName host : String)
      (ports : List Nat) (undeclaredBinaries : List String)
  | undeclaredPortWouldChange (operationIndex : Nat) (ruleName host : String) (ports : List Nat)
  | conflictingInspectionContracts (host : String) (port : Nat) (contracts : List String)
  | invalidL7Target (operationIndex : Nat) (reason : String)
  | l7TargetNotFound (ruleName host : String) (ports : List Nat) (path : Option String)
  | ambiguousL7Target (ruleName host : String) (ports : List Nat) (paths : List String)
  | l7BinaryScopeMismatch (ruleName : String) (expected declared : List String)
  | l7PortScopeMismatch (ruleName host : String) (expected declared : List Nat)
  | cannotRemoveBinaryFromAnyBinaryScope (operationIndex : Nat) (ruleName binaryPath : String)
  | invalidMergedPolicy (violations : List PolicyViolation)
  | endpointHasNoL7Inspection (host : String) (port : Nat)
  | unsupportedEndpointProtocol (host : String) (port : Nat) (protocol : String)
  | endpointHasNoAllowBase (host : String) (port : Nat)
  | unsupportedAccessPreset (host : String) (port : Nat) (access : String)
  deriving DecidableEq

/-- What a merge returns. -/
structure PolicyMergeResult where
  policy : SandboxPolicy
  warnings : List PolicyMergeWarning
  changed : Bool

def anyBinaryScope : String := "any binary"

/-- The debug form of a list of ports. -/
def debugPorts (ports : List Nat) : String := "[" ++ joinWith ", " (ports.map toString) ++ "]"

/-- The errors that exist only because two authorizations share one rule, with
their rendered text. The merge renders no other error. -/
def PolicyMergeError.inheritanceConflict : PolicyMergeError → Option String
  | .newBinaryWouldInheritAuthorization operationIndex ruleName binaryScope host ports =>
    let ports := debugPorts ports
    some (s!"merge operation {operationIndex} add-rule '{ruleName}' would grant {binaryScope} " ++
      s!"undeclared authorization for {host} on ports {ports}")
  | .existingBinariesWouldInheritAuthorization operationIndex ruleName host ports undeclared =>
    let ports := debugPorts ports
    let undeclared := joinWith ", " undeclared
    some (s!"merge operation {operationIndex} add-rule '{ruleName}' would grant existing " ++
      s!"binaries new or changed authorization for {host} on ports {ports}; also declare " ++
      s!"{undeclared}")
  | .undeclaredPortWouldChange operationIndex ruleName host ports =>
    let ports := debugPorts ports
    some (s!"merge operation {operationIndex} add-rule '{ruleName}' would change " ++
      s!"authorization for {host} on undeclared ports {ports}; declare every port of the " ++
      "endpoint it modifies")
  | _ => none

end OpenShell.Policy
