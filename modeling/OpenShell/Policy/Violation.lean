import OpenShell.Policy.Types

/-!
# Policy violations
-/

namespace OpenShell.Policy

/-- A safety violation found in a sandbox policy. -/
inductive PolicyViolation
  | invalidProcessIdentity (field value : String)
  | pathTraversal (path : String)
  | relativePath (path : String)
  | overlyBroadPath (path : String)
  | fieldTooLong (path : String) (length : Nat)
  | tooManyPaths (count : Nat)
  | tldWildcard (policyName host : String)
  | missingEndpointHost (policyName : String)
  | missingTcpEndpointHost (policyName : String)
  | tcpEndpointIpLiteral (policyName host : String)
  | invalidTcpEndpointHost (policyName host reason : String)
  | missingEndpointPort (policyName host : String)
  | invalidEndpointPort (policyName host : String) (port : Nat)
  | invalidHostWildcard (policyName host : String)
  | missingSigningService (policyName host : String)
  | unknownCredentialSigning (policyName host value : String)
  | credentialSigningWithBodyRewrite (policyName host : String)
  | invalidL7Endpoint (policyName : String) (endpointIndex : Nat) (reason : String)
  | invalidMiddlewareConfig (name reason : String)
  | tooManyMiddlewareConfigs (count : Nat)
  | duplicateMiddlewareOrder (order : Int) (firstName secondName : String)
  | tooManyMiddlewareSelectorPatterns (name : String) (count : Nat)
  | middlewareTlsSkipConflict (middlewareName policyName host : String)
  | invalidLandlockCompatibility (value : String)
  | missingMcpVersions (policyName host : String)
  | mcpOptionsOnNonMcpEndpoint (policyName host protocol : String)
  | unsupportedMcpVersion (policyName host version : String)
  | duplicateMcpVersion (policyName host version : String)
  deriving DecidableEq

/-- One violation if the condition holds. -/
def violationIf (c : Bool) (violation : PolicyViolation) : List PolicyViolation :=
  if c then [violation] else []

theorem violationIf_eq_nil {c : Bool} {violation : PolicyViolation} :
    violationIf c violation = [] ↔ c = false := by
  cases c <;> simp [violationIf]

/-- The name a rule is reported under. -/
def reportedName (key : String) (rule : NetworkPolicyRule) : String :=
  if rule.name = "" then key else rule.name

end OpenShell.Policy
