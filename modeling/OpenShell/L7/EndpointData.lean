import OpenShell.L7.Request
import OpenShell.Policy.Presets

/-!
# Endpoint data at run time

Before the Rego engine sees an endpoint, the supervisor gives its protocol one
spelling, fills in the method of MCP rules that leave it out, and expands its
access preset to rules. These are not the rules of the policy schema
(`Policy.expandAccessPreset`): the runtime chooses them by the normalized
protocol and knows GraphQL.
-/

namespace OpenShell.L7

open OpenShell.Policy

/-! ## Protocols -/

def protocolName : L7Protocol → String
  | .rest => "rest"
  | .websocket => "websocket"
  | .graphql => "graphql"
  | .sql => "sql"
  | .jsonRpc => "json-rpc"
  | .mcp => "mcp"

/-- The body of `normalize_endpoint_protocols`. An endpoint without a protocol
stays without one. -/
def normalizeEndpointProtocol (protocol : String) : String :=
  if eqIgnoreAsciiCase protocol "tcp" then "tcp"
  else ((L7Protocol.parse protocol).map protocolName).getD protocol

/-! ## MCP rules -/

/-- The body of `normalize_l7_rule_aliases`, for rules that come from the
protobuf: those have no `tool`, and their matchers are in place. -/
def normalizeL7RuleAliases (endpoint : NetworkEndpoint) (rule : L7Rule) : L7Rule :=
  if endpoint.protocol = "mcp" ∧ (endpoint.mcp.bind (·.allowAllKnownMcpMethods)).getD false then
    { rule with allow := rule.allow.map fun allow =>
        if isEmptyStr allow.method then
          { allow with method := if allow.params.contains "name" then "tools/call" else "*" }
        else allow }
  else rule

/-! ## Access presets -/

def graphqlRule (operationType : String) : L7Rule := { allow := some { operationType } }

def jsonrpcRule (method : String) : L7Rule := { allow := some { method } }

/-- The rules of an access preset. GraphQL and WebSocket presets differ from the
others. -/
def accessPresetRules (protocol access : String) : Option (List L7Rule) :=
  if protocol = "graphql" then
    if access = "read-only" then some [graphqlRule "query"]
    else if access = "read-write" then some [graphqlRule "query", graphqlRule "mutation"]
    else if access = "full" then some [graphqlRule "*"]
    else none
  else if protocol = "websocket" then
    if access = "read-only" then some (["GET"].map methodRule)
    else if access = "read-write" then some (["GET", "WEBSOCKET_TEXT"].map methodRule)
    else if access = "full" then some (["*"].map methodRule)
    else none
  else
    if access = "read-only" then some (["GET", "HEAD", "OPTIONS"].map methodRule)
    else if access = "read-write" then
      some (["GET", "HEAD", "OPTIONS", "POST", "PUT", "PATCH"].map methodRule)
    else if access = "full" then some (["*"].map methodRule)
    else none

/-- The access field of the endpoint data; empty where the field is left out. -/
def accessText (access : Int) : String :=
  if access = 0 then ""
  else (networkAccessPresetToStr access).getD ("unknown(" ++ toString access ++ ")")

/-- An endpoint without a protocol is expanded as REST. -/
def protocolOrRest (protocol : String) : String := if isEmptyStr protocol then "rest" else protocol

/-- The body of `expand_access_presets`. An unsupported preset is ignored. -/
def expandAccessPresets (endpoint : NetworkEndpoint) : NetworkEndpoint :=
  let protocol := protocolOrRest endpoint.protocol
  let access := accessText endpoint.access
  if protocol = "mcp" ∧ isEmptyStr access ∧ endpoint.rules.isEmpty ∧
      (endpoint.mcp.bind (·.allowAllKnownMcpMethods)).getD false then
    { endpoint with rules := [jsonrpcRule "*"] }
  else if isEmptyStr access || !endpoint.rules.isEmpty then endpoint
  else { endpoint with rules := (accessPresetRules protocol access).getD endpoint.rules }

/-- The endpoint as the Rego engine sees it. -/
def runtimeEndpoint (endpoint : NetworkEndpoint) : NetworkEndpoint :=
  let endpoint := { endpoint with protocol := normalizeEndpointProtocol endpoint.protocol }
  let endpoint := { endpoint with rules := endpoint.rules.map (normalizeL7RuleAliases endpoint) }
  expandAccessPresets endpoint

end OpenShell.L7
