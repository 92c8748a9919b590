import OpenShell.Policy.L7Validate
import OpenShell.Schema.Params

/-!
# Between the authored document and the policy message

`to_proto` and `from_proto` of `openshell-policy`, with the middleware part and
the checks an authored document has to pass. A conversion that the source guards
with `expect` fails here with `panicked`.
-/

namespace OpenShell.Schema

open OpenShell.Core OpenShell.Policy

/-- Why a conversion fails. -/
inductive ConversionError
  | unsupportedVersion (version : Nat)
  | emptyMcpVersions (name : String)
  | unsupportedMcpVersion (name version : String)
  | duplicateMcpVersion (name version : String)
  | mcpOptionsOnNonMcpEndpoint (name host : String)
  | invalidModes (message : String)
  | unrepresentableNumber (number : JsonNumber)
  | invalidLandlockCompatibility (value : String)
  | portTooLarge (host : String) (port : Nat)
  | panicked
  deriving DecidableEq

/-- `Option::expect`. -/
def expected {α : Type} : Option α → Except ConversionError α
  | some value => .ok value
  | none => .error .panicked

/-! ## Authored documents -/

/-- The walk of `parse_mcp_versions`, with the revisions seen so far. -/
def checkMcpVersions (name : String) : List McpProtocolVersion → List String →
    Except ConversionError Unit
  | _, [] => .ok ()
  | seen, value :: rest =>
    match McpProtocolVersion.parse value with
    | none => .error (.unsupportedMcpVersion name value)
    | some version => do
      rejectIf (version ∈ seen) (.duplicateMcpVersion name version.asStr)
      checkMcpVersions name (version :: seen) rest

def validateMcpConfig (name : String) (config : McpConfig) : Except ConversionError Unit :=
  match config.versions with
  | none => .ok ()
  | some versions => do
    rejectIf (versions = []) (.emptyMcpVersions name)
    checkMcpVersions name [] versions

/-- Effective rule name, falling back to the surrounding map key. -/
def effectiveName (key name : String) : String := if isEmptyStr name then key else name

def validateEndpoint (name : String) (endpoint : NetworkEndpoint) : Except ConversionError Unit :=
  match endpoint.mcp with
  | none => .ok ()
  | some config =>
    if isMcpProtocol endpoint.protocol then validateMcpConfig name config
    else .error (.mcpOptionsOnNonMcpEndpoint name endpoint.host)

/-- What a parsed document is checked for. -/
def validatePolicy (document : PolicyDocument) : Except ConversionError Unit := do
  rejectIf (document.version ≠ 1) (.unsupportedVersion document.version)
  document.networkPolicies.toList.forM fun (key, rule) =>
    rule.endpoints.forM (validateEndpoint (effectiveName key rule.name))

/-! ## To the message -/

def allowDefToProto (allow : L7Allow) : Policy.L7Allow where
  method := allow.method
  path := allow.path
  command := allow.command
  operationType := allow.operationType
  operationName := allow.operationName
  fields := allow.fields
  query := allow.query.map fun _ => matcherDefToProto
  params := (flattenParamMatchers (paramsWithTool allow.params allow.tool)).map fun _ =>
    matcherDefToProto

def denyDefToProto (deny : L7DenyRule) : Policy.L7DenyRule where
  method := deny.method
  path := deny.path
  command := deny.command
  operationType := deny.operationType
  operationName := deny.operationName
  fields := deny.fields
  query := deny.query.map fun _ => matcherDefToProto
  params := (flattenParamMatchers (paramsWithTool deny.params deny.tool)).map fun _ =>
    matcherDefToProto

/-- One body limit for the JSON-RPC family; the MCP stanza goes first. -/
def jsonRpcMaxBodyBytes (jsonRpc : Option JsonRpcConfig) (mcp : Option McpConfig) : Nat :=
  match mcp with
  | some config => config.maxBodyBytes
  | none => (jsonRpc.map (·.maxBodyBytes)).getD 0

def mcpOptions (protocol : String) (mcp : Option McpConfig) : Option McpOptions :=
  if !isMcpProtocol protocol then none
  else
    let versions := (mcp.bind (·.versions)).getD defaultMcpVersions
    some {
      strictToolNames := mcp.bind (·.strictToolNames)
      allowAllKnownMcpMethods := mcp.bind (·.allowAllKnownMcpMethods)
      versions := canonicalizeMcpVersions versions }

/-- `ports` takes precedence, else a single `port` becomes the list. -/
def normalizedPorts (endpoint : NetworkEndpoint) : List Nat :=
  if !endpoint.ports.isEmpty then endpoint.ports.map UInt16.toNat
  else if 0 < endpoint.port then [endpoint.port.toNat]
  else []

def graphqlOperationToProto (operation : GraphqlOperation) : Policy.GraphqlOperation where
  operationType := operation.operationType
  operationName := operation.operationName
  fields := operation.fields

def endpointToProto (endpoint : NetworkEndpoint) :
    Except ConversionError Policy.NetworkEndpoint := do
  let ports := normalizedPorts endpoint
  let tls ← expected (networkTlsModeFromStr endpoint.tls)
  let enforcement ← expected (networkEnforcementModeFromStr endpoint.enforcement)
  let access ← expected (networkAccessPresetFromStr endpoint.access)
  return {
    host := endpoint.host
    path := endpoint.path
    port := ports.headD 0
    ports
    protocol := endpoint.protocol
    tls := tls.toInt
    enforcement := enforcement.toInt
    access := access.toInt
    rules := endpoint.rules.map fun rule => { allow := some (allowDefToProto rule.allow) }
    allowedIps := endpoint.allowedIps
    denyRules := endpoint.denyRules.map denyDefToProto
    allowEncodedSlash := endpoint.allowEncodedSlash
    websocketCredentialRewrite := endpoint.websocketCredentialRewrite
    requestBodyCredentialRewrite := endpoint.requestBodyCredentialRewrite
    allowUninspectedCredentials := endpoint.allowUninspectedCredentials
    -- provenance is derived by the gateway and cannot be authored
    providerCredentialed := false
    tokenGrantOwner := ""
    advisorProposed := false
    persistedQueries := endpoint.persistedQueries
    graphqlPersistedQueries := endpoint.graphqlPersistedQueries.map fun _ => graphqlOperationToProto
    graphqlMaxBodyBytes := endpoint.graphqlMaxBodyBytes
    credentialSigning := endpoint.credentialSigning
    signingService := endpoint.signingService
    signingRegion := endpoint.signingRegion
    credentialBinding :=
      endpoint.credentialBinding.map fun binding => { provider := binding.provider }
    jsonRpcMaxBodyBytes := jsonRpcMaxBodyBytes endpoint.jsonRpc endpoint.mcp
    mcp := mcpOptions endpoint.protocol endpoint.mcp }

def ruleToProto (key : String) (rule : NetworkPolicyRule) :
    Except ConversionError Policy.NetworkPolicyRule := do
  let endpoints ← rule.endpoints.mapM endpointToProto
  return {
    name := if isEmptyStr rule.name then key else rule.name
    endpoints
    binaries := rule.binaries.map fun binary => { path := binary.path } }

/-- `json_object_to_struct`, with its error. -/
def configToStruct (config : List (String × Json)) : Except ConversionError PbStruct :=
  (jsonObjectToStruct config).mapError .unrepresentableNumber

def middlewareToProto (key : String) (definition : NetworkMiddleware) :
    Except ConversionError NetworkMiddlewareConfig := do
  let config ← configToStruct definition.config
  return {
    name := if isEmptyStr definition.name then key else definition.name
    middleware := definition.middleware
    order := definition.order
    config := some config
    onError := definition.onError
    endpoints := definition.endpoints.map fun selector =>
      { includes := selector.includes, exclude := selector.exclude } }

/-- The modes of an endpoint, before anything is converted. -/
def checkEndpointModes (policyName : String) (endpoint : NetworkEndpoint) (index : Nat) :
    Except ConversionError Unit :=
  let errors := validateEndpointModes endpoint.tls endpoint.enforcement endpoint.access
  let joined := joinWith "; " errors
  rejectIf (errors ≠ [])
    (.invalidModes s!"network policy '{policyName}': endpoint {index}: {joined}")

def checkModes (policies : Map NetworkPolicyRule) : Except ConversionError Unit :=
  policies.toList.forM fun (policyName, rule) =>
    rule.endpoints.zipIdx.forM fun (endpoint, index) => checkEndpointModes policyName endpoint index

def filesystemToProto (fs : FilesystemPolicy) : Policy.FilesystemPolicy where
  includeWorkdir := fs.includeWorkdir
  readOnly := fs.readOnly
  readWrite := fs.readWrite

def processToProto (process : ProcessPolicy) : Policy.ProcessPolicy where
  runAsUser := process.runAsUser
  runAsGroup := process.runAsGroup

def landlockText : LandlockCompatibility → String
  | .bestEffort => "best_effort"
  | .hardRequirement => "hard_requirement"

def toProto (raw : PolicyDocument) : Except ConversionError SandboxPolicy := do
  checkModes raw.networkPolicies
  let networkMiddlewares ← traverse middlewareToProto raw.networkMiddlewares
  let networkPolicies ← traverse ruleToProto raw.networkPolicies
  return {
    version := raw.version
    filesystem := raw.filesystemPolicy.map filesystemToProto
    landlock := raw.landlock.map fun landlock =>
      { compatibility := landlockText landlock.compatibility }
    process := raw.process.map processToProto
    networkPolicies
    networkMiddlewares }

/-! ## From the message -/

def allowProtoToDef (protocol : String) (allow : Policy.L7Allow) (allowAllKnownMcpMethods : Bool) :
    L7Allow :=
  let split := splitToolParam protocol (allow.params.map fun _ => matcherProtoToDef)
  { method := yamlMcpMethod protocol allow.method split.1.isSome allowAllKnownMcpMethods
    path := allow.path
    command := allow.command
    query := allow.query.map fun _ => matcherProtoToDef
    operationType := allow.operationType
    operationName := allow.operationName
    fields := allow.fields
    tool := split.1
    params := flatParamsToDef protocol split.2 }

def denyProtoToDef (protocol : String) (deny : Policy.L7DenyRule) (allowAllKnownMcpMethods : Bool) :
    L7DenyRule :=
  let split := splitToolParam protocol (deny.params.map fun _ => matcherProtoToDef)
  { method := yamlMcpMethod protocol deny.method split.1.isSome allowAllKnownMcpMethods
    path := deny.path
    command := deny.command
    query := deny.query.map fun _ => matcherProtoToDef
    operationType := deny.operationType
    operationName := deny.operationName
    fields := deny.fields
    tool := split.1
    params := flatParamsToDef protocol split.2 }

def jsonRpcConfigFromProto (maxBodyBytes : Nat) : Option JsonRpcConfig :=
  if 0 < maxBodyBytes then some { maxBodyBytes } else none

def mcpConfigFromProto (maxBodyBytes : Nat) (mcp : Option McpOptions) : Option McpConfig :=
  let versions := canonicalizeMcpVersions ((mcp.map (·.versions)).getD [])
  let strictToolNames := mcp.bind (·.strictToolNames)
  let allowAllKnownMcpMethods := mcp.bind (·.allowAllKnownMcpMethods)
  if !versions.isEmpty || 0 < maxBodyBytes || strictToolNames.isSome ||
      allowAllKnownMcpMethods.isSome then
    some { versions := some versions, maxBodyBytes, strictToolNames, allowAllKnownMcpMethods }
  else none

/-- A port of the message as an authored port. -/
def checkedPort (host : String) (value : Nat) : Except ConversionError UInt16 :=
  if value < 65536 then .ok (UInt16.ofNat value) else .error (.portTooLarge host value)

/-- One port is written as `port`, several as `ports`. -/
def portsFromProto (endpoint : Policy.NetworkEndpoint) :
    Except ConversionError (UInt16 × List UInt16) :=
  if 1 < endpoint.ports.length then
    (endpoint.ports.mapM (checkedPort endpoint.host)).map fun ports => (0, ports)
  else (checkedPort endpoint.host (endpoint.ports.headD endpoint.port)).map fun port => (port, [])

def allowsAllKnownMethods (endpoint : Policy.NetworkEndpoint) : Bool :=
  !isMcpProtocol endpoint.protocol ||
    (endpoint.mcp.bind (·.allowAllKnownMcpMethods)).getD false

def graphqlOperationFromProto (operation : Policy.GraphqlOperation) : GraphqlOperation where
  operationType := operation.operationType
  operationName := operation.operationName
  fields := operation.fields

def endpointFromProto (endpoint : Policy.NetworkEndpoint) :
    Except ConversionError NetworkEndpoint := do
  let ports ← portsFromProto endpoint
  let tls ← expected (networkTlsModeToStr endpoint.tls)
  let enforcement ← expected (networkEnforcementModeToStr endpoint.enforcement)
  let access ← expected (networkAccessPresetToStr endpoint.access)
  return {
    host := endpoint.host
    path := endpoint.path
    port := ports.1
    ports := ports.2
    protocol := endpoint.protocol
    tls, enforcement, access
    rules := endpoint.rules.map fun rule =>
      { allow := allowProtoToDef endpoint.protocol (rule.allow.getD {})
          (allowsAllKnownMethods endpoint) }
    allowedIps := endpoint.allowedIps
    denyRules := endpoint.denyRules.map fun deny =>
      denyProtoToDef endpoint.protocol deny (allowsAllKnownMethods endpoint)
    allowEncodedSlash := endpoint.allowEncodedSlash
    websocketCredentialRewrite := endpoint.websocketCredentialRewrite
    requestBodyCredentialRewrite := endpoint.requestBodyCredentialRewrite
    allowUninspectedCredentials := endpoint.allowUninspectedCredentials
    persistedQueries := endpoint.persistedQueries
    graphqlPersistedQueries :=
      endpoint.graphqlPersistedQueries.map fun _ => graphqlOperationFromProto
    graphqlMaxBodyBytes := endpoint.graphqlMaxBodyBytes
    credentialSigning := endpoint.credentialSigning
    signingService := endpoint.signingService
    signingRegion := endpoint.signingRegion
    credentialBinding :=
      endpoint.credentialBinding.map fun binding => { provider := binding.provider }
    jsonRpc := if isMcpProtocol endpoint.protocol then none
      else jsonRpcConfigFromProto endpoint.jsonRpcMaxBodyBytes
    mcp := if isMcpProtocol endpoint.protocol then
        mcpConfigFromProto endpoint.jsonRpcMaxBodyBytes endpoint.mcp
      else none }

def ruleFromProto (_key : String) (rule : Policy.NetworkPolicyRule) :
    Except ConversionError NetworkPolicyRule := do
  let endpoints ← rule.endpoints.mapM endpointFromProto
  return {
    name := rule.name
    endpoints
    binaries := rule.binaries.map fun binary => { path := binary.path } }

def middlewareFromProto (_key : String) (middleware : NetworkMiddlewareConfig) :
    Except ConversionError NetworkMiddleware :=
  .ok {
    name := middleware.name
    middleware := middleware.middleware
    order := middleware.order
    config := (middleware.config.map structToJsonObject).getD []
    onError := middleware.onError
    endpoints := middleware.endpoints.map fun selector =>
      { includes := selector.includes, exclude := selector.exclude } }

def filesystemFromProto (fs : Policy.FilesystemPolicy) : FilesystemPolicy where
  includeWorkdir := fs.includeWorkdir
  readOnly := fs.readOnly
  readWrite := fs.readWrite

def landlockFromProto (landlock : Policy.LandlockPolicy) : Except ConversionError LandlockPolicy :=
  if landlock.compatibility = "hard_requirement" then .ok { compatibility := .hardRequirement }
  else if landlock.compatibility = "best_effort" ∨ landlock.compatibility = "" then
    .ok { compatibility := .bestEffort }
  else .error (.invalidLandlockCompatibility landlock.compatibility)

/-- An empty process section is dropped. -/
def processFromProto (process : Policy.ProcessPolicy) : Option ProcessPolicy :=
  if isEmptyStr process.runAsUser && isEmptyStr process.runAsGroup then none
  else some { runAsUser := process.runAsUser, runAsGroup := process.runAsGroup }

def fromProto (policy : SandboxPolicy) : Except ConversionError PolicyDocument := do
  let landlock ← policy.landlock.mapM landlockFromProto
  let networkPolicies ← traverse ruleFromProto policy.networkPolicies
  let networkMiddlewares ← traverse middlewareFromProto policy.networkMiddlewares
  return {
    -- zero stands for an omitted version
    version := if policy.version = 0 then 1 else policy.version
    filesystemPolicy := policy.filesystem.map filesystemFromProto
    landlock
    process := policy.process.bind processFromProto
    networkPolicies
    networkMiddlewares }

end OpenShell.Schema
