import OpenShell.Policy.Types
import OpenShell.Util.Text

/-!
# Endpoint modes and L7 semantics

The checks of `l7_validate.rs`, which the profile lint and the policy validator
share: the wire values of the mode enumerations, and which combinations of
protocol, access preset and rules make sense. Each check returns the texts of
its errors; an empty list means the endpoint passes.
-/

namespace OpenShell.Policy

/-- One error if the condition holds. -/
def errorIf (c : Bool) (message : String) : List String := if c then [message] else []

theorem errorIf_eq_nil {c : Bool} {message : String} : errorIf c message = [] ↔ c = false := by
  cases c <;> simp [errorIf]

/-! ## Mode values -/

def networkTlsModeFromStr (value : String) : Option NetworkTlsMode :=
  if value = "" then some .unspecified
  else if value = "skip" then some .skip
  else if value = "terminate" then some .terminate
  else if value = "passthrough" then some .passthrough
  else none

def networkEnforcementModeFromStr (value : String) : Option NetworkEnforcementMode :=
  if value = "" then some .unspecified
  else if value = "enforce" then some .enforce
  else if value = "audit" then some .audit
  else none

def networkAccessPresetFromStr (value : String) : Option NetworkAccessPreset :=
  if value = "" then some .unspecified
  else if value = "read-only" then some .readOnly
  else if value = "read-write" then some .readWrite
  else if value = "full" then some .full
  else none

def networkTlsModeToStr (value : Int) : Option String :=
  (NetworkTlsMode.ofInt value).map fun
    | .unspecified => ""
    | .skip => "skip"
    | .terminate => "terminate"
    | .passthrough => "passthrough"

def networkEnforcementModeToStr (value : Int) : Option String :=
  (NetworkEnforcementMode.ofInt value).map fun
    | .unspecified => ""
    | .enforce => "enforce"
    | .audit => "audit"

def networkAccessPresetToStr (value : Int) : Option String :=
  (NetworkAccessPreset.ofInt value).map fun
    | .unspecified => ""
    | .readOnly => "read-only"
    | .readWrite => "read-write"
    | .full => "full"

/-- Only automatic termination and `skip` are still accepted. -/
def unknownTlsValue (tls : String) : List String :=
  errorIf (!(tls == "" || tls == "skip"))
    s!"unknown tls value '{tls}'; omit the field to keep automatic TLS termination"

def validateEndpointModeValues (tls enforcement access : Int) : List String :=
  (match networkTlsModeToStr tls with
    | some value => unknownTlsValue value
    | none => [s!"unknown tls enum value {tls}"]) ++
  errorIf (networkEnforcementModeToStr enforcement).isNone
    s!"unknown enforcement enum value {enforcement}" ++
  errorIf (networkAccessPresetToStr access).isNone s!"unknown access enum value {access}"

def validateEndpointModes (tls enforcement access : String) : List String :=
  unknownTlsValue tls ++
  errorIf (!(enforcement == "" || enforcement == "enforce" || enforcement == "audit"))
    s!"unknown enforcement value '{enforcement}' (expected enforce or audit)" ++
  errorIf (!(access == "" || access == "read-only" || access == "read-write" || access == "full"))
    s!"unknown access value '{access}' (expected read-only, read-write, or full)"

/-! ## Protocols -/

/-- Known L7 inspection protocols. -/
inductive L7Protocol
  | rest | websocket | graphql | sql | jsonRpc | mcp
  deriving DecidableEq

def L7Protocol.parse (s : String) : Option L7Protocol :=
  let s := toAsciiLowercase s
  if s = "rest" then some .rest
  else if s = "websocket" then some .websocket
  else if s = "graphql" then some .graphql
  else if s = "sql" then some .sql
  else if s = "json-rpc" then some .jsonRpc
  else if s = "mcp" then some .mcp
  else none

def L7Protocol.isJsonrpcFamily : L7Protocol → Bool
  | .jsonRpc | .mcp => true
  | _ => false

/-- `tcp` is the explicit spelling of L4 handling, not an inspection protocol. -/
def isExplicitTcpProtocol (protocol : String) : Bool := eqIgnoreAsciiCase protocol "tcp"

def validateExplicitTcpAdditionalFields (protocol : String) (presentFields : List String) :
    List String :=
  if !isExplicitTcpProtocol protocol || presentFields.isEmpty then []
  else
    let present := joinWith ", " presentFields
    [s!"protocol tcp does not support L7-only fields: {present}; remove those fields"]

/-! ## Field combinations -/

/-- The endpoint fields the semantic checks read. -/
structure L7EndpointFields where
  protocol : String
  access : String
  hasRules : Bool
  websocketCredentialRewrite : Bool
  hasDenyRules : Bool
  rulesWouldDenyAll : Bool
  allowAllKnownMcpMethods : Bool

def validateL7EndpointSemantics (ep : L7EndpointFields) : List String :=
  let protocol := ep.protocol
  let l7Protocol := L7Protocol.parse protocol
  let explicitTcp := isExplicitTcpProtocol protocol
  let jsonrpcFamily := l7Protocol.any L7Protocol.isJsonrpcFamily
  let isMcp := l7Protocol == some .mcp
  let isJsonrpc := l7Protocol == some .jsonRpc
  let noAccess := isEmptyStr ep.access
  errorIf (l7Protocol == some .rest && ep.websocketCredentialRewrite)
    ("websocket_credential_rewrite is not supported for protocol rest; use protocol: websocket " ++
      "with explicit message rules") ++
  -- 1. unknown protocol
  errorIf (!isEmptyStr protocol && l7Protocol.isNone && !explicitTcp)
    (s!"unknown protocol '{protocol}' (expected tcp, rest, websocket, graphql, sql, json-rpc, " ++
      "or mcp)") ++
  errorIf (explicitTcp && (!noAccess || ep.hasRules || ep.hasDenyRules))
    "protocol tcp does not support access, rules, or deny_rules; remove those L7 fields" ++
  -- 2. rules and access exclude each other
  errorIf (ep.hasRules && !noAccess) "rules and access are mutually exclusive" ++
  -- 3. the JSON-RPC family has no access presets
  errorIf (jsonrpcFamily && !noAccess)
    (if isMcp then
      s!"protocol {protocol} does not support access presets; use rules/deny_rules or set " ++
        "mcp.allow_all_known_mcp_methods: true for an allow-all MCP policy"
    else
      s!"protocol {protocol} does not support access presets; use explicit rules with " ++
        "allow.method such as \"*\"") ++
  -- 4. json-rpc needs explicit rules
  errorIf (isJsonrpc && !ep.hasRules && noAccess)
    s!"protocol {protocol} requires explicit rules with allow.method" ++
  -- 5. so do the others, or a preset
  errorIf (l7Protocol.isSome && !isMcp && !isJsonrpc && !ep.hasRules && noAccess)
    "protocol requires rules or access to define allowed traffic" ++
  -- 6. MCP needs rules unless every known method is allowed
  errorIf (isMcp && !ep.hasRules && noAccess && !ep.allowAllKnownMcpMethods)
    "protocol mcp requires rules when mcp.allow_all_known_mcp_methods is false" ++
  -- 7. rules that deny everything
  errorIf (ep.rulesWouldDenyAll && !(isMcp && ep.allowAllKnownMcpMethods))
    ("rules would deny all traffic (no allow clause found). " ++
      "Use `access: full` or add allow clauses to rules.") ++
  -- 8. deny rules need inspection
  errorIf (ep.hasDenyRules && l7Protocol.isNone)
    "deny_rules require protocol (L7 inspection must be enabled)" ++
  -- 9. deny rules need something to deny from
  errorIf (ep.hasDenyRules && !isMcp && !ep.hasRules && noAccess)
    "deny_rules require rules or access to define the base allow set"

end OpenShell.Policy
