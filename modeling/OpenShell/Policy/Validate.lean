import OpenShell.Core.HostPatternSpec
import OpenShell.Policy.L7Validate
import OpenShell.Policy.Mcp
import OpenShell.Policy.Middleware

/-!
# Policy validation

`validate_sandbox_policy` and its checked canonicalization. The validator
collects every violation; a policy is accepted when there is none. Two
libraries decide parts of it and are parameters (`External`): the `glob` crate
behind host patterns, and the DNS name parser that explicit TCP endpoints go
through.

Maps are walked in key order. The source does so for rules and middlewares and
leaves the order open for persisted queries, where it only affects the order of
the reports.
-/

namespace OpenShell.Policy

open OpenShell.Core

/-- Libraries the validator calls. -/
structure External where
  glob : Glob
  /-- `Name::from_ascii`: the error text, or whether the name is the root. -/
  nameFromAscii : String → Except String Bool

/-- The libraries on texts without wildcards and on well-formed names. -/
def plainExternal : External where
  glob := plainGlob
  nameFromAscii _ := .ok false

/-! ## Process, filesystem, Landlock -/

def minSandboxUid : Nat := 1

def maxSandboxUid : Nat := 2 ^ 32 - 2

/-- `sandbox`, or a numeric id in range. -/
def isValidSandboxIdentity (value : String) : Bool :=
  if value = "sandbox" then true
  else (parseU32 value).any fun uid => minSandboxUid ≤ uid && uid ≤ maxSandboxUid

def processViolations (process : ProcessPolicy) : List PolicyViolation :=
  violationIf (!isEmptyStr process.runAsUser && !isValidSandboxIdentity process.runAsUser)
    (.invalidProcessIdentity "run_as_user" process.runAsUser) ++
  violationIf (!isEmptyStr process.runAsGroup && !isValidSandboxIdentity process.runAsGroup)
    (.invalidProcessIdentity "run_as_group" process.runAsGroup)

def isValidLandlockCompatibility (value : String) : Bool :=
  isEmptyStr value || value == "best_effort" || value == "hard_requirement"

def maxFilesystemPaths : Nat := 256

def maxPathLength : Nat := 4096

/-- At most 77 bytes of whole characters. -/
def truncateChars : Nat → List Char → List Char
  | _, [] => []
  | budget, c :: rest =>
    if c.utf8Size ≤ budget then c :: truncateChars (budget - c.utf8Size) rest else []

def truncateForDisplay (s : String) : String :=
  if byteLen s ≤ 80 then s else String.ofList (truncateChars 77 s.toList) ++ "..."

/-- Some component of the path is `..`. -/
def hasParentDir (path : String) : Bool := (splitChar path '/').any (· == "..")

def filesystemPathViolations (path : String) : List PolicyViolation :=
  if byteLen path > maxPathLength then [.fieldTooLong (truncateForDisplay path) (byteLen path)]
  else
    violationIf (!startsWith path "/") (.relativePath path) ++
    violationIf (hasParentDir path) (.pathTraversal path)

def validateFilesystemPaths (readOnly readWrite : List String) : List PolicyViolation :=
  violationIf (readOnly.length + readWrite.length > maxFilesystemPaths)
    (.tooManyPaths (readOnly.length + readWrite.length)) ++
  (readOnly ++ readWrite).flatMap filesystemPathViolations ++
  readWrite.flatMap fun path =>
    -- repeated separators still designate the root
    violationIf (isEmptyStr (trimEndMatches path '/')) (.overlyBroadPath path)

/-! ## Endpoints -/

def hostWildcardShapeInvalid (host : String) : Bool :=
  if host = "*" || host = "**" then true
  else if !containsChar host '*' then false
  else
    let labels := splitChar host '.'
    let firstLabel := labels.headD ""
    if containsStr firstLabel "**" && firstLabel != "**" then true
    else labels.tail.any fun label =>
      containsStr label "**" || (containsChar label '*' && label != "*")

def validateTcpDnsHostSelector (ext : External) (host : String) : Except String Unit := do
  rejectIf (trim host ≠ host) "leading or trailing whitespace is not allowed"
  rejectIf (endsWith host ".") "omit the trailing DNS root dot"
  let _ ← HostSelector.new ext.glob [host] []
  -- wildcards are replaced by a representative label
  let representative := joinWith "." ((splitChar host '.').map fun label =>
    if label = "**" then "x" else replaceChar label '*' "x")
  match ext.nameFromAscii (representative ++ ".") with
  | .error error => .error s!"selector cannot represent a valid DNS name: {error}"
  | .ok isRoot => rejectIf isRoot "DNS root is not a destination hostname"

def hostViolations (ext : External) (name : String) (ep : NetworkEndpoint) :
    List PolicyViolation :=
  let explicitTcp := isExplicitTcpProtocol ep.protocol
  let noHost := isEmptyStr (trim ep.host)
  if noHost && explicitTcp then [.missingTcpEndpointHost name]
  else if noHost && ep.allowedIps.isEmpty then [.missingEndpointHost name]
  else if explicitTcp then
    if isIpAddr ep.host then [.tcpEndpointIpLiteral name ep.host]
    else
      match validateTcpDnsHostSelector ext ep.host with
      | .error reason => [.invalidTcpEndpointHost name ep.host reason]
      | .ok () => []
  else []

/-- The ports an endpoint covers: `ports`, or `port` if that list is empty. -/
def effectivePorts (ep : NetworkEndpoint) : List Nat :=
  if ep.ports.isEmpty then (if ep.port ≠ 0 then [ep.port] else []) else ep.ports

def portViolations (name : String) (ep : NetworkEndpoint) : List PolicyViolation :=
  violationIf (effectivePorts ep).isEmpty (.missingEndpointPort name ep.host) ++
  (effectivePorts ep).flatMap fun port =>
    violationIf (!(1 ≤ port && port ≤ 65535)) (.invalidEndpointPort name ep.host port)

def wildcardViolations (name : String) (ep : NetworkEndpoint) : List PolicyViolation :=
  violationIf
    (containsChar ep.host '*' && (startsWith ep.host "*." || startsWith ep.host "**.") &&
      (splitChar ep.host '.').length ≤ 2)
    (.tldWildcard name ep.host) ++
  violationIf (hostWildcardShapeInvalid ep.host) (.invalidHostWildcard name ep.host)

def signingViolations (name : String) (ep : NetworkEndpoint) : List PolicyViolation :=
  let signing := ep.credentialSigning
  violationIf
    (!isEmptyStr signing &&
      !(signing == "sigv4" || signing == "sigv4:body" || signing == "sigv4:no_body"))
    (.unknownCredentialSigning name ep.host signing) ++
  violationIf (!isEmptyStr signing && isEmptyStr ep.signingService)
    (.missingSigningService name ep.host) ++
  violationIf (!isEmptyStr signing && ep.requestBodyCredentialRewrite)
    (.credentialSigningWithBodyRewrite name ep.host)

/-- A rule without any allow clause. -/
def ruleAllowsNothing (rule : L7Rule) : Bool :=
  match rule.allow with
  | none => true
  | some allow =>
    isEmptyStr allow.method && isEmptyStr allow.path && isEmptyStr allow.command &&
      isEmptyStr allow.operationType && isEmptyStr allow.operationName &&
      allow.fields.isEmpty && allow.params.isEmpty

/-- The fields the L7 semantics are checked on. -/
def l7EndpointFields (ep : NetworkEndpoint) : L7EndpointFields where
  protocol := ep.protocol
  access := (networkAccessPresetToStr ep.access).getD ""
  hasRules := !ep.rules.isEmpty
  websocketCredentialRewrite := ep.websocketCredentialRewrite
  hasDenyRules := !ep.denyRules.isEmpty
  rulesWouldDenyAll := !ep.rules.isEmpty && ep.rules.all ruleAllowsNothing
  allowAllKnownMcpMethods := (ep.mcp.bind (·.allowAllKnownMcpMethods)).getD false

/-- L7-only fields set on the endpoint, by name. -/
def explicitTcpFields (ep : NetworkEndpoint) : List String :=
  errorIf (ep.enforcement != 0) "enforcement" ++
  errorIf (!isEmptyStr ep.path) "path" ++
  errorIf ep.allowEncodedSlash "allow_encoded_slash" ++
  errorIf ep.websocketCredentialRewrite "websocket_credential_rewrite" ++
  errorIf ep.requestBodyCredentialRewrite "request_body_credential_rewrite" ++
  errorIf (!isEmptyStr ep.persistedQueries) "persisted_queries" ++
  errorIf (!ep.graphqlPersistedQueries.isEmpty) "graphql_persisted_queries" ++
  errorIf (ep.graphqlMaxBodyBytes > 0) "graphql_max_body_bytes" ++
  errorIf (ep.jsonRpcMaxBodyBytes > 0) "json_rpc_max_body_bytes" ++
  errorIf ep.mcp.isSome "mcp"

def isGraphqlOperationType (value : String) : Bool :=
  value == "query" || value == "mutation" || value == "subscription"

/-- Operation types of a GraphQL endpoint's rules and registered queries. -/
def graphqlErrors (ep : NetworkEndpoint) : List String :=
  (ep.rules.zipIdx.flatMap fun (rule, index) =>
    errorIf (!isGraphqlOperationType ((rule.allow.map (·.operationType)).getD ""))
      s!"rules[{index}].allow.operation_type must be query, mutation, or subscription") ++
  (ep.denyRules.zipIdx.flatMap fun (rule, index) =>
    errorIf (!isGraphqlOperationType rule.operationType)
      s!"deny_rules[{index}].operation_type must be query, mutation, or subscription") ++
  (ep.graphqlPersistedQueries.toList.flatMap fun (key, operation) =>
    errorIf (!isGraphqlOperationType operation.operationType)
      (s!"graphql_persisted_queries[{key}].operation_type must be query, mutation, or " ++
        "subscription"))

def l7Errors (ep : NetworkEndpoint) : List String :=
  validateL7EndpointSemantics (l7EndpointFields ep) ++
  validateEndpointModeValues ep.tls ep.enforcement ep.access ++
  validateExplicitTcpAdditionalFields ep.protocol (explicitTcpFields ep) ++
  errorIf (!isEmptyStr ep.path && !startsWith ep.path "/" && ep.path != "**")
    "path must start with '/' or be '**'" ++
  errorIf
    (!isEmptyStr ep.persistedQueries &&
      !(ep.persistedQueries == "deny" || ep.persistedQueries == "allow_registered"))
    s!"persisted_queries must be 'deny' or 'allow_registered', got '{ep.persistedQueries}'" ++
  errorIf
    (ep.protocol == "sql" &&
      (networkEnforcementModeToStr ep.enforcement).getD "" == "enforce")
    "SQL enforcement requires full SQL parsing; use enforcement: audit" ++
  if ep.protocol = "graphql" then graphqlErrors ep else []

/-! ## MCP options -/

/-- Whether an MCP endpoint must already carry its revisions. -/
inductive McpVersionPresence
  | requireMaterialized | allowDefaultable
  deriving DecidableEq

/-- The walk over a revision allowlist, with the revisions seen so far. -/
def mcpVersionViolations (name host : String) :
    List String → List String → List PolicyViolation
  | _, [] => []
  | seen, version :: rest =>
    violationIf (seen.contains version) (.duplicateMcpVersion name host version) ++
    violationIf (McpProtocolVersion.parse version).isNone
      (.unsupportedMcpVersion name host version) ++
    mcpVersionViolations name host (version :: seen) rest

def mcpEndpointViolations (presence : McpVersionPresence) (name : String)
    (ep : NetworkEndpoint) : List PolicyViolation :=
  let missing := violationIf (presence == .requireMaterialized) (.missingMcpVersions name ep.host)
  if isMcpProtocol ep.protocol then
    match ep.mcp with
    | none => missing
    | some mcp =>
      if mcp.versions.isEmpty then missing
      else mcpVersionViolations name ep.host [] mcp.versions
  else violationIf ep.mcp.isSome (.mcpOptionsOnNonMcpEndpoint name ep.host ep.protocol)

/-! ## The policy -/

def endpointViolations (ext : External) (presence : McpVersionPresence) (name : String)
    (index : Nat) (ep : NetworkEndpoint) : List PolicyViolation :=
  hostViolations ext name ep ++ portViolations name ep ++ wildcardViolations name ep ++
    signingViolations name ep ++ (l7Errors ep).map (.invalidL7Endpoint name index) ++
    mcpEndpointViolations presence name ep

def policyViolations (ext : External) (presence : McpVersionPresence) (policy : SandboxPolicy) :
    List PolicyViolation :=
  (policy.process.map processViolations).getD [] ++
  (match policy.landlock with
    | some landlock =>
      violationIf (!isValidLandlockCompatibility landlock.compatibility)
        (.invalidLandlockCompatibility landlock.compatibility)
    | none => []) ++
  (match policy.filesystem with
    | some fs => validateFilesystemPaths fs.readOnly fs.readWrite
    | none => []) ++
  (policy.networkPolicies.toList.flatMap fun (key, rule) =>
    rule.endpoints.zipIdx.flatMap fun (ep, index) =>
      endpointViolations ext presence (reportedName key rule) index ep) ++
  validateMiddlewares ext.glob policy

def validateSandboxPolicyWithMcpPresence (ext : External) (presence : McpVersionPresence)
    (policy : SandboxPolicy) : Except (List PolicyViolation) Unit :=
  let violations := policyViolations ext presence policy
  if violations.isEmpty then .ok () else .error violations

def validateSandboxPolicy (ext : External) (policy : SandboxPolicy) :
    Except (List PolicyViolation) Unit :=
  validateSandboxPolicyWithMcpPresence ext .requireMaterialized policy

/-- Validate raw policy state, then return its canonical representation. -/
def validateAndCanonicalizeSandboxPolicy (ext : External) (policy : SandboxPolicy) :
    Except (List PolicyViolation) SandboxPolicy := do
  validateSandboxPolicyWithMcpPresence ext .allowDefaultable policy
  return canonicalizeMcpVersionAllowlists (materializeDefaultMcpVersions policy)

/-! ## Accepted policies -/

theorem policyViolations_of_valid {ext : External} {presence : McpVersionPresence}
    {policy : SandboxPolicy}
    (h : validateSandboxPolicyWithMcpPresence ext presence policy = .ok ()) :
    policyViolations ext presence policy = [] := by
  unfold validateSandboxPolicyWithMcpPresence at h
  dsimp only at h
  obtain ⟨hnil, h⟩ := then_of_ite h nofun
  exact List.isEmpty_iff.mp hnil

theorem endpointViolations_of_policyViolations {ext : External} {presence : McpVersionPresence}
    {policy : SandboxPolicy} (h : policyViolations ext presence policy = []) {key : String}
    {rule : NetworkPolicyRule} (hr : policy.networkPolicies[key]? = some rule)
    {endpoint : NetworkEndpoint} (he : endpoint ∈ rule.endpoints) :
    ∃ index, endpointViolations ext presence (reportedName key rule) index endpoint = [] := by
  unfold policyViolations at h
  have hall := (List.append_eq_nil_iff.mp (List.append_eq_nil_iff.mp h).1).2
  have hentry : (key, rule) ∈ policy.networkPolicies.toList :=
    Std.ExtTreeMap.mem_toList_iff_getElem?_eq_some.mpr hr
  have hrule := List.flatMap_eq_nil_iff.mp hall (key, rule) hentry
  obtain ⟨index, hi, hget⟩ := List.getElem_of_mem he
  refine ⟨index, List.flatMap_eq_nil_iff.mp hrule (endpoint, index) ?_⟩
  exact List.mem_zipIdx_iff_getElem?.mpr (by rw [List.getElem?_eq_getElem hi, hget])

end OpenShell.Policy
