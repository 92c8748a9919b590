import Std.Data.ExtTreeMap
import OpenShell.Core.ProtoStruct

/-!
# The sandbox policy

The messages of `sandbox.proto` that policy validation and merging read, under
their own field names. A protobuf map is an extensional tree map: equality is
equality of entries, and `toList` walks the keys in order, as the code does
wherever order is observable. Enumerations travel as `i32` on the wire and may
hold undeclared values, so those fields are integers here as well.
-/

namespace OpenShell.Policy

/-- A protobuf `map<string, α>`. -/
abbrev Map (α : Type) := Std.ExtTreeMap String α

/-- Query value matcher for one query parameter key. -/
structure L7QueryMatcher where
  glob : String := ""
  any : List String := []
  deriving DecidableEq

/-- Allowed action definition for L7 rules. -/
structure L7Allow where
  method : String := ""
  path : String := ""
  command : String := ""
  query : Map L7QueryMatcher := ∅
  operationType : String := ""
  operationName : String := ""
  fields : List String := []
  params : Map L7QueryMatcher := ∅
  deriving DecidableEq

/-- An L7 policy rule (allow-only). -/
structure L7Rule where
  allow : Option L7Allow := none
  deriving DecidableEq

/-- An L7 deny rule that blocks specific requests. -/
structure L7DenyRule where
  method : String := ""
  path : String := ""
  command : String := ""
  query : Map L7QueryMatcher := ∅
  operationType : String := ""
  operationName : String := ""
  fields : List String := []
  params : Map L7QueryMatcher := ∅
  deriving DecidableEq

/-- MCP-only policy and inspection options. -/
structure McpOptions where
  strictToolNames : Option Bool := none
  allowAllKnownMcpMethods : Option Bool := none
  versions : List String := []
  deriving DecidableEq

/-- Trusted GraphQL operation classification. -/
structure GraphqlOperation where
  operationType : String := ""
  operationName : String := ""
  fields : List String := []
  deriving DecidableEq

/-- Binds a policy endpoint to static credentials from a sandbox provider. -/
structure NetworkCredentialBinding where
  provider : String := ""
  deriving DecidableEq

/-- A network endpoint (host + port) with optional L7 inspection config. -/
structure NetworkEndpoint where
  host : String := ""
  port : Nat := 0
  protocol : String := ""
  tls : Int := 0
  enforcement : Int := 0
  access : Int := 0
  rules : List L7Rule := []
  allowedIps : List String := []
  ports : List Nat := []
  denyRules : List L7DenyRule := []
  allowEncodedSlash : Bool := false
  persistedQueries : String := ""
  graphqlPersistedQueries : Map GraphqlOperation := ∅
  graphqlMaxBodyBytes : Nat := 0
  path : String := ""
  websocketCredentialRewrite : Bool := false
  requestBodyCredentialRewrite : Bool := false
  advisorProposed : Bool := false
  credentialSigning : String := ""
  signingService : String := ""
  signingRegion : String := ""
  jsonRpcMaxBodyBytes : Nat := 0
  mcp : Option McpOptions := none
  credentialBinding : Option NetworkCredentialBinding := none
  allowUninspectedCredentials : Bool := false
  providerCredentialed : Bool := false
  tokenGrantOwner : String := ""
  deriving DecidableEq

/-- A binary identity for network policy matching. -/
structure NetworkBinary where
  path : String := ""
  deriving DecidableEq

/-- A named network access policy rule: every binary may use every endpoint. -/
structure NetworkPolicyRule where
  name : String := ""
  endpoints : List NetworkEndpoint := []
  binaries : List NetworkBinary := []
  deriving DecidableEq

/-- Host selector of a middleware config. -/
structure MiddlewareEndpointSelector where
  includes : List String := []
  exclude : List String := []
  deriving DecidableEq

/-- A reusable middleware config selected for admitted egress by host. -/
structure NetworkMiddlewareConfig where
  name : String := ""
  middleware : String := ""
  onError : String := ""
  endpoints : Option MiddlewareEndpointSelector := none
  order : Int := 0
  config : Option Core.PbStruct := none
  deriving DecidableEq

structure FilesystemPolicy where
  includeWorkdir : Bool := false
  readOnly : List String := []
  readWrite : List String := []
  deriving DecidableEq

structure LandlockPolicy where
  compatibility : String := ""
  deriving DecidableEq

structure ProcessPolicy where
  runAsUser : String := ""
  runAsGroup : String := ""
  deriving DecidableEq

/-- Sandbox security policy configuration. -/
structure SandboxPolicy where
  version : Nat := 0
  filesystem : Option FilesystemPolicy := none
  landlock : Option LandlockPolicy := none
  process : Option ProcessPolicy := none
  networkPolicies : Map NetworkPolicyRule := ∅
  networkMiddlewares : Map NetworkMiddlewareConfig := ∅
  deriving DecidableEq

/-! ## Enumerations -/

/-- TLS handling for a network endpoint. -/
inductive NetworkTlsMode
  | unspecified | skip | terminate | passthrough
  deriving DecidableEq

/-- Enforcement behavior for inspected network traffic. -/
inductive NetworkEnforcementMode
  | unspecified | enforce | audit
  deriving DecidableEq

/-- Shorthand access policy for an inspected network endpoint. -/
inductive NetworkAccessPreset
  | unspecified | readOnly | readWrite | full
  deriving DecidableEq

/-- `NetworkTlsMode::try_from`. -/
def NetworkTlsMode.ofInt (value : Int) : Option NetworkTlsMode :=
  if value = 0 then some .unspecified
  else if value = 1 then some .skip
  else if value = 2 then some .terminate
  else if value = 3 then some .passthrough
  else none

/-- `NetworkEnforcementMode::try_from`. -/
def NetworkEnforcementMode.ofInt (value : Int) : Option NetworkEnforcementMode :=
  if value = 0 then some .unspecified
  else if value = 1 then some .enforce
  else if value = 2 then some .audit
  else none

/-- `NetworkAccessPreset::try_from`. -/
def NetworkAccessPreset.ofInt (value : Int) : Option NetworkAccessPreset :=
  if value = 0 then some .unspecified
  else if value = 1 then some .readOnly
  else if value = 2 then some .readWrite
  else if value = 3 then some .full
  else none

def NetworkTlsMode.toInt : NetworkTlsMode → Int
  | .unspecified => 0
  | .skip => 1
  | .terminate => 2
  | .passthrough => 3

def NetworkEnforcementMode.toInt : NetworkEnforcementMode → Int
  | .unspecified => 0
  | .enforce => 1
  | .audit => 2

def NetworkAccessPreset.toInt : NetworkAccessPreset → Int
  | .unspecified => 0
  | .readOnly => 1
  | .readWrite => 2
  | .full => 3

/-- `NetworkTlsMode::Skip as i32`. -/
def tlsSkip : Int := 1

end OpenShell.Policy
