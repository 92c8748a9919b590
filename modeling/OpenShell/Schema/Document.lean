import OpenShell.Policy.Types
import OpenShell.Util.Text

/-!
# The authored policy schema

The document tree of `openshell-policy-schema`: what a policy file says once it
is parsed, before it becomes the protobuf message of `OpenShell.Policy`. The
containment prover reads policies in this form, and serialization converts
between the two. Ports are `u16` here. An object of parameter matchers is kept
as its entries in key order.
-/

namespace OpenShell.Schema

open OpenShell.Core OpenShell.Policy

/-- `query: { repo: "NVIDIA/*" }`, or the expanded form `{ any: [...] }`. -/
inductive QueryMatcher
  | glob (glob : String)
  | any (any : List String)
  deriving DecidableEq

/-- MCP params, which may be authored as nested maps. -/
inductive ParameterMatcher
  | matcher (matcher : QueryMatcher)
  | object (children : List (String × ParameterMatcher))

structure L7Allow where
  method : String := ""
  path : String := ""
  command : String := ""
  query : Map QueryMatcher := ∅
  operationType : String := ""
  operationName : String := ""
  fields : List String := []
  tool : Option QueryMatcher := none
  params : List (String × ParameterMatcher) := []

structure L7Rule where
  allow : L7Allow := {}

structure L7DenyRule where
  method : String := ""
  path : String := ""
  command : String := ""
  query : Map QueryMatcher := ∅
  operationType : String := ""
  operationName : String := ""
  fields : List String := []
  tool : Option QueryMatcher := none
  params : List (String × ParameterMatcher) := []

structure JsonRpcConfig where
  maxBodyBytes : Nat := 0
  deriving DecidableEq

/-- An omitted allowlist selects the pinned default revision. -/
structure McpConfig where
  versions : Option (List String) := none
  maxBodyBytes : Nat := 0
  strictToolNames : Option Bool := none
  allowAllKnownMcpMethods : Option Bool := none
  deriving DecidableEq

structure GraphqlOperation where
  operationType : String := ""
  operationName : String := ""
  fields : List String := []
  deriving DecidableEq

structure NetworkCredentialBinding where
  provider : String
  deriving DecidableEq

structure NetworkEndpoint where
  host : String := ""
  path : String := ""
  port : UInt16 := 0
  ports : List UInt16 := []
  protocol : String := ""
  tls : String := ""
  enforcement : String := ""
  access : String := ""
  rules : List L7Rule := []
  allowedIps : List String := []
  denyRules : List L7DenyRule := []
  allowEncodedSlash : Bool := false
  websocketCredentialRewrite : Bool := false
  requestBodyCredentialRewrite : Bool := false
  allowUninspectedCredentials : Bool := false
  persistedQueries : String := ""
  graphqlPersistedQueries : Map GraphqlOperation := ∅
  graphqlMaxBodyBytes : Nat := 0
  credentialSigning : String := ""
  signingService : String := ""
  signingRegion : String := ""
  credentialBinding : Option NetworkCredentialBinding := none
  jsonRpc : Option JsonRpcConfig := none
  mcp : Option McpConfig := none

structure NetworkBinary where
  path : String
  deriving DecidableEq

structure NetworkPolicyRule where
  name : String := ""
  endpoints : List NetworkEndpoint := []
  binaries : List NetworkBinary := []

structure MiddlewareEndpointSelector where
  includes : List String := []
  exclude : List String := []
  deriving DecidableEq

structure NetworkMiddleware where
  name : String := ""
  middleware : String
  order : Int := 0
  config : List (String × Json) := []
  onError : String := ""
  endpoints : Option MiddlewareEndpointSelector := none
  deriving DecidableEq

structure FilesystemPolicy where
  includeWorkdir : Bool := false
  readOnly : List String := []
  readWrite : List String := []
  deriving DecidableEq

inductive LandlockCompatibility
  | bestEffort | hardRequirement
  deriving DecidableEq

structure LandlockPolicy where
  compatibility : LandlockCompatibility := .bestEffort
  deriving DecidableEq

structure ProcessPolicy where
  runAsUser : String := ""
  runAsGroup : String := ""
  deriving DecidableEq

structure PolicyDocument where
  version : Nat
  filesystemPolicy : Option FilesystemPolicy := none
  landlock : Option LandlockPolicy := none
  process : Option ProcessPolicy := none
  networkPolicies : Map NetworkPolicyRule := ∅
  networkMiddlewares : Map NetworkMiddleware := ∅

/-! ## Equality -/

mutual

/-- Structural comparison of parameter matchers. -/
def ParameterMatcher.beq : ParameterMatcher → ParameterMatcher → Bool
  | .matcher a, .matcher b => a == b
  | .object a, .object b => ParameterMatcher.beqChildren a b
  | _, _ => false

def ParameterMatcher.beqChildren :
    List (String × ParameterMatcher) → List (String × ParameterMatcher) → Bool
  | [], [] => true
  | (k, x) :: xs, (l, y) :: ys =>
    k == l && ParameterMatcher.beq x y && ParameterMatcher.beqChildren xs ys
  | _, _ => false

end

mutual

theorem ParameterMatcher.beq_iff :
    ∀ a b : ParameterMatcher, ParameterMatcher.beq a b = true ↔ a = b
  | .matcher _, b => by cases b <;> simp [ParameterMatcher.beq]
  | .object a, b => by cases b <;> simp [ParameterMatcher.beq, ParameterMatcher.beqChildren_iff a]

theorem ParameterMatcher.beqChildren_iff :
    ∀ a b : List (String × ParameterMatcher), ParameterMatcher.beqChildren a b = true ↔ a = b
  | [], b => by cases b <;> simp [ParameterMatcher.beqChildren]
  | (k, x) :: xs, b => by
    cases b <;> simp [ParameterMatcher.beqChildren, ParameterMatcher.beq_iff x,
      ParameterMatcher.beqChildren_iff xs, Prod.ext_iff]

end

instance : DecidableEq ParameterMatcher := fun a b =>
  decidable_of_iff _ (ParameterMatcher.beq_iff a b)

deriving instance DecidableEq for L7Allow
deriving instance DecidableEq for L7Rule
deriving instance DecidableEq for L7DenyRule
deriving instance DecidableEq for NetworkEndpoint
deriving instance DecidableEq for NetworkPolicyRule
deriving instance DecidableEq for PolicyDocument

/-! ## Endpoints -/

/-- Effective authored ports. A non-empty `ports` list takes precedence. -/
def NetworkEndpoint.effectivePorts (endpoint : NetworkEndpoint) : List UInt16 :=
  if endpoint.ports.isEmpty then (if endpoint.port ≠ 0 then [endpoint.port] else [])
  else endpoint.ports

/-- Whether this endpoint is uninspected L4 traffic. -/
def NetworkEndpoint.isL4 (endpoint : NetworkEndpoint) : Bool :=
  isEmptyStr endpoint.protocol || eqIgnoreAsciiCase endpoint.protocol "tcp"

end OpenShell.Schema
