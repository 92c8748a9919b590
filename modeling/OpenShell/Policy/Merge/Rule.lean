import OpenShell.Policy.Merge.Endpoint

/-!
# Merging one rule into another

A rule authorizes every one of its binaries to use every one of its endpoints.
`merge_rules` folds the incoming endpoints into the existing ones, then refuses
the result unless the operation declared every pair it adds: a new binary needs
every unit of every endpoint declared, and a changed unit needs its port named
and every existing binary declared.
-/

namespace OpenShell.Policy

/-! ## Folding endpoints -/

def endpointsOverlap (left right : NetworkEndpoint) : Bool :=
  eqIgnoreAsciiCase left.host right.host && left.path == right.path &&
    (canonicalPorts left).any fun port => (canonicalPorts right).contains port

/-- Merge an endpoint into the first one it overlaps, or push it. -/
def foldEndpoint (operationIndex : Nat) (incoming : NetworkEndpoint) :
    List NetworkEndpoint → Except PolicyMergeError (List NetworkEndpoint × List PolicyMergeWarning)
  | [] => .ok ([incoming], [])
  | existing :: rest =>
    if endpointsOverlap existing incoming then do
      let (merged, warnings) ← mergeEndpoint existing incoming operationIndex
      return (merged :: rest, warnings)
    else do
      let (rest, warnings) ← foldEndpoint operationIndex incoming rest
      return (existing :: rest, warnings)

/-- The loop over the incoming endpoints. -/
def foldEndpoints (operationIndex : Nat) :
    List NetworkEndpoint → List NetworkEndpoint →
      Except PolicyMergeError (List NetworkEndpoint × List PolicyMergeWarning)
  | merged, [] => .ok (merged, [])
  | merged, incoming :: rest => do
    let (merged, warnings) ← foldEndpoint operationIndex (normalizeEndpoint incoming) merged
    let (merged, more) ← foldEndpoints operationIndex merged rest
    return (merged, warnings ++ more)

/-! ## Declarations -/

/-- Fill a declaration's unset carry-over fields from the endpoint it is judged
against. -/
def adoptUnsetRetainedFields (declared merged : NetworkEndpoint) : NetworkEndpoint :=
  { declared with
    protocol := if isEmptyStr declared.protocol then merged.protocol else declared.protocol
    tls := if declared.tls = 0 then merged.tls else declared.tls
    enforcement := if declared.enforcement = 0 then merged.enforcement else declared.enforcement
    access := if declared.access = 0 ∧ declared.rules.isEmpty then merged.access
      else declared.access
    persistedQueries :=
      if isEmptyStr declared.persistedQueries then merged.persistedQueries
      else declared.persistedQueries
    graphqlPersistedQueries :=
      if declared.graphqlPersistedQueries.isEmpty then merged.graphqlPersistedQueries
      else declared.graphqlPersistedQueries
    graphqlMaxBodyBytes :=
      if declared.graphqlMaxBodyBytes = 0 then merged.graphqlMaxBodyBytes
      else declared.graphqlMaxBodyBytes
    credentialSigning :=
      if isEmptyStr declared.credentialSigning then merged.credentialSigning
      else declared.credentialSigning
    signingService :=
      if isEmptyStr declared.signingService then merged.signingService
      else declared.signingService
    signingRegion :=
      if isEmptyStr declared.signingRegion then merged.signingRegion else declared.signingRegion
    jsonRpcMaxBodyBytes :=
      if declared.jsonRpcMaxBodyBytes = 0 then merged.jsonRpcMaxBodyBytes
      else declared.jsonRpcMaxBodyBytes }

def operationDeclares (declarations : List NetworkEndpoint) (merged : NetworkEndpoint)
    (port : Option Nat) : Bool :=
  declarations.any fun declared => endpointAuthorizationCoversPort declared merged port

/-- The operation names the port on an endpoint with `merged`'s host and path. -/
def operationNamesPort (incomingRule : NetworkPolicyRule) (merged : NetworkEndpoint)
    (port : Option Nat) : Bool :=
  incomingRule.endpoints.any fun declared =>
    eqIgnoreAsciiCase declared.host merged.host && declared.path == merged.path &&
      port.all fun port => (canonicalPorts declared).contains port

/-- `existing` already authorizes exactly what `merged` authorizes at the port.
Clearing the advisor's provenance counts as a change. -/
def authorizationUnitUnchanged (existing merged : NetworkEndpoint) (port : Option Nat) : Bool :=
  existing.advisorProposed == merged.advisorProposed &&
    endpointAuthorizationCoversPort existing merged port &&
    endpointAuthorizationCoversPort merged existing port

/-- Binary scope the operation adds to the rule, for the report. -/
def newBinaryScope (existingRule incomingRule : NetworkPolicyRule) : Option String :=
  if existingRule.binaries.isEmpty then none
  else if incomingRule.binaries.isEmpty then some anyBinaryScope
  else
    (incomingRule.binaries.find? fun binary =>
      !(existingRule.binaries.map (·.path)).contains binary.path).map
      fun binary => "binary '" ++ binary.path ++ "'"

/-- Existing binary scope the incoming rule failed to declare. -/
def undeclaredExistingBinaries (existingRule incomingRule : NetworkPolicyRule) : List String :=
  if incomingRule.binaries.isEmpty then []
  else if existingRule.binaries.isEmpty then ["the existing any-binary scope"]
  else
    (existingRule.binaries.filter fun existing =>
      !incomingRule.binaries.any fun incoming => incoming.path == existing.path).map (·.path)

/-! ## The guard -/

/-- Units of a merged endpoint that the operation does not declare. -/
def undeclaredPorts (incomingRule : NetworkPolicyRule) (endpoint : NetworkEndpoint) :
    List (Option Nat) :=
  let declarations := incomingRule.endpoints.map (adoptUnsetRetainedFields · endpoint)
  (authorizationPorts endpoint).filter fun port => !operationDeclares declarations endpoint port

/-- Units of a merged endpoint that no existing endpoint had as they are. -/
def changedPorts (existingRule : NetworkPolicyRule) (endpoint : NetworkEndpoint) :
    List (Option Nat) :=
  (authorizationPorts endpoint).filter fun port =>
    !existingRule.endpoints.any fun existing => authorizationUnitUnchanged existing endpoint port

/-- A binary the operation adds must reach nothing it does not declare. -/
def ensureNewBinaryIsDeclared (existingRule incomingRule : NetworkPolicyRule) (operationIndex : Nat)
    (ruleName : String) (endpoint : NetworkEndpoint) : Except PolicyMergeError Unit :=
  match newBinaryScope existingRule incomingRule with
  | some binaryScope =>
    let undeclared := undeclaredPorts incomingRule endpoint
    rejectIf (undeclared ≠ []) (.newBinaryWouldInheritAuthorization operationIndex ruleName
      binaryScope endpoint.host undeclared.reduceOption)
  | none => .ok ()

/-- The guard's loop body, for one merged endpoint. -/
def ensureEndpointIsDeclared (existingRule incomingRule : NetworkPolicyRule) (operationIndex : Nat)
    (ruleName : String) (endpoint : NetworkEndpoint) : Except PolicyMergeError Unit := do
  ensureNewBinaryIsDeclared existingRule incomingRule operationIndex ruleName endpoint
  let changed := changedPorts existingRule endpoint
  let undeclaredChanged := changed.filter fun port => !operationNamesPort incomingRule endpoint port
  rejectIf (undeclaredChanged ≠ []) (.undeclaredPortWouldChange operationIndex ruleName
    endpoint.host undeclaredChanged.reduceOption)
  let undeclaredBinaries := undeclaredExistingBinaries existingRule incomingRule
  rejectIf (changed ≠ [] ∧ undeclaredBinaries ≠ []) (.existingBinariesWouldInheritAuthorization
    operationIndex ruleName endpoint.host changed.reduceOption undeclaredBinaries)

def ensureAuthorizationInheritanceIsDeclared (existingRule incomingRule : NetworkPolicyRule)
    (mergedEndpoints : List NetworkEndpoint) (operationIndex : Nat) (ruleName : String) :
    Except PolicyMergeError Unit :=
  forM mergedEndpoints (ensureEndpointIsDeclared existingRule incomingRule operationIndex ruleName)

/-! ## The merged rule -/

/-- An empty list authorizes every binary, and stays. -/
def mergeBinaries (existing incoming : List NetworkBinary) : List NetworkBinary :=
  if existing.isEmpty then existing
  else if incoming.isEmpty then []
  else appendUnique existing incoming

def mergeRules (existingRule incomingRule : NetworkPolicyRule) (operationIndex : Nat)
    (ruleName targetRuleName : String) :
    Except PolicyMergeError (NetworkPolicyRule × List PolicyMergeWarning) := do
  let (mergedEndpoints, endpointWarnings) ←
    foldEndpoints operationIndex existingRule.endpoints incomingRule.endpoints
  ensureAuthorizationInheritanceIsDeclared existingRule incomingRule mergedEndpoints operationIndex
    ruleName
  let scopeWarnings :=
    if existingRule.binaries.isEmpty && !incomingRule.binaries.isEmpty then
      [.existingAnyBinaryScopeRetained targetRuleName (incomingRule.binaries.map (·.path))]
    else []
  return ({ existingRule with
      endpoints := mergedEndpoints
      binaries := mergeBinaries existingRule.binaries incomingRule.binaries },
    scopeWarnings ++ endpointWarnings)

/-! ## Adding a rule to a policy -/

def isProviderRuleName (ruleName : String) : Bool := startsWith ruleName "_provider_"

def rulesShareEndpoint (existingRule incomingRule : NetworkPolicyRule) : Bool :=
  incomingRule.endpoints.any fun incoming =>
    existingRule.endpoints.any fun existing => endpointsOverlap existing incoming

/-- The rule an operation with a new name folds into: the first sandbox-owned one
it shares an endpoint with, unless the advisor proposed one of its endpoints. -/
def overlappingKey (policy : SandboxPolicy) (incomingRule : NetworkPolicyRule) : Option String :=
  if incomingRule.endpoints.all fun endpoint => !endpoint.advisorProposed then
    policy.networkPolicies.keys.find? fun key =>
      !isProviderRuleName key &&
        policy.networkPolicies[key]?.any fun existing => rulesShareEndpoint existing incomingRule
  else none

/-- Store a rule under a key. -/
def insertRule (policy : SandboxPolicy) (key : String) (rule : NetworkPolicyRule) :
    SandboxPolicy :=
  { policy with networkPolicies := policy.networkPolicies.insert key rule }

/-- The rule as it is added: normalized and named. -/
def preparedRule (ruleName : String) (incomingRule : NetworkPolicyRule) : NetworkPolicyRule :=
  let rule := normalizeRule incomingRule
  { rule with name := if isEmptyStr rule.name then ruleName else rule.name }

def addRule (policy : SandboxPolicy) (operationIndex : Nat) (ruleName : String)
    (incomingRule : NetworkPolicyRule) :
    Except PolicyMergeError (SandboxPolicy × List PolicyMergeWarning) :=
  let incomingRule := preparedRule ruleName incomingRule
  match policy.networkPolicies[ruleName]? with
  | some existingRule => do
    let (merged, warnings) ← mergeRules existingRule incomingRule operationIndex ruleName ruleName
    return (insertRule policy ruleName merged, warnings)
  | none =>
    match (overlappingKey policy incomingRule).bind fun key =>
      policy.networkPolicies[key]?.map fun existingRule => (key, existingRule) with
    | none => .ok (insertRule policy ruleName incomingRule, [])
    | some (key, existingRule) =>
      match mergeRules existingRule incomingRule operationIndex ruleName key with
      | .ok (merged, warnings) => .ok (insertRule policy key merged, warnings)
      | .error error =>
        match error.inheritanceConflict with
        -- folding would widen: the rule keeps its own name
        | some reason => .ok (insertRule policy ruleName incomingRule,
            [.keptRequestedRuleNameToAvoidWidening ruleName key reason])
        | none => .error error

end OpenShell.Policy
