import OpenShell.Policy.L7Validate

/-!
# Requests and allow rules

The part of `sandbox-policy.rego` that decides whether an explicit rule of an
endpoint allows a request: method rules by method, path and query, GraphQL rules
by operation, and method rules of the JSON-RPC family by the called method. An
empty text stands for a field the endpoint data leaves out.
-/

namespace OpenShell.L7

open OpenShell.Policy

/-- Built-in functions of the Rego engine. -/
structure RegoBuiltins where
  globMatch : String → List String → String → Bool
  upper : String → String
  lower : String → String

/-- What the proofs use of them: upper-case ASCII names are in upper case. -/
structure RegoBuiltins.Laws (rego : RegoBuiltins) : Prop where
  upper_eq : ∀ s : String, s.toList.all (fun c => 'A' ≤ c && c ≤ '_') = true → rego.upper s = s

/-! ## Requests -/

/-- `GraphqlOperationInfo`. -/
structure GraphqlOperationInfo extends GraphqlOperation where
  persistedQuery : Bool := false
  persistedQueryHash : String := ""
  persistedQueryId : String := ""

structure GraphqlRequestInfo where
  operations : List GraphqlOperationInfo := []
  error : String := ""

/-- `jsonrpc_policy_input`, with the parameters that are texts. -/
structure JsonRpcInput where
  method : Option String := none
  params : Map String := ∅
  hasResponse : Bool := false
  mcpMethodClassification : String := ""

/-- `input.request`. -/
structure L7Request where
  method : String
  path : String
  queryParams : Map (List String) := ∅
  graphql : Option GraphqlRequestInfo := none
  jsonrpc : Option JsonRpcInput := none

section Matching

variable (rego : RegoBuiltins) (endpoint : NetworkEndpoint) (op : GraphqlOperationInfo)

/-! ## Method, path and query -/

/-- `*` matches every method, and `GET` matches `HEAD`. -/
def methodMatches (actual expected : String) : Bool :=
  expected == "*" || rego.upper actual == rego.upper expected ||
    (rego.upper actual == "HEAD" && rego.upper expected == "GET")

def pathMatches (actual pattern : String) : Bool :=
  pattern == "**" || rego.globMatch pattern ["/"] actual

def queryValueMatches (value : String) (matcher : L7QueryMatcher) : Bool :=
  (!isEmptyStr matcher.glob && rego.globMatch matcher.glob [] value) ||
    matcher.any.any fun pattern => rego.globMatch pattern [] value

def queryKeyMatches (request : L7Request) (key : String) (matcher : L7QueryMatcher) : Bool :=
  match request.queryParams[key]? with
  | none => false
  | some values => !values.isEmpty && values.all fun value => queryValueMatches rego value matcher

def queryParamsMatch (request : L7Request) (allow : L7Allow) : Bool :=
  allow.query.toList.all fun entry => queryKeyMatches rego request entry.1 entry.2

def restAllowMatches (request : L7Request) (allow : L7Allow) : Bool :=
  !isEmptyStr allow.method && !isEmptyStr allow.path &&
    methodMatches rego request.method allow.method && pathMatches rego request.path allow.path &&
    queryParamsMatch rego request allow

/-! ## GraphQL operations -/

def graphqlOperationNeedsRegistry : Bool :=
  op.persistedQuery && isEmptyStr op.operationType

/-- The registered operation of a persisted query, by its hash or else its id. -/
def graphqlRegistered : Option GraphqlOperation :=
  let key := if isEmptyStr op.persistedQueryHash then op.persistedQueryId else op.persistedQueryHash
  if isEmptyStr key then none else endpoint.graphqlPersistedQueries[key]?

def graphqlRegisteredOperation : Bool :=
  endpoint.persistedQueries == "allow_registered" && (graphqlRegistered endpoint op).isSome

def graphqlEffectiveOperation : Option GraphqlOperation :=
  if graphqlOperationNeedsRegistry op then graphqlRegistered endpoint op
  else some op.toGraphqlOperation

def graphqlOperationTypeMatches (op : GraphqlOperation) (allow : L7Allow) : Bool :=
  allow.operationType == "*" || rego.lower op.operationType == rego.lower allow.operationType

def graphqlOperationNameMatches (op : GraphqlOperation) (allow : L7Allow) : Bool :=
  isEmptyStr allow.operationName || rego.globMatch allow.operationName [] op.operationName

/-- Every selected field must be listed, if the rule lists any. -/
def graphqlAllowFieldsMatch (op : GraphqlOperation) (allow : L7Allow) : Bool :=
  allow.fields.isEmpty || (!op.fields.isEmpty && op.fields.all fun field =>
    allow.fields.any fun pattern => rego.globMatch pattern [] field)

def graphqlAllowMatches (allow : L7Allow) : Bool :=
  !isEmptyStr allow.operationType && (graphqlEffectiveOperation endpoint op).any fun effective =>
    graphqlOperationTypeMatches rego effective allow &&
      graphqlOperationNameMatches rego effective allow &&
      graphqlAllowFieldsMatch rego effective allow

/-- Some rule's allow clause satisfies the predicate. -/
def anyAllow (p : L7Allow → Bool) : Bool :=
  endpoint.rules.any fun rule => rule.allow.any p

/-- Every operation needs a rule of its own. -/
def graphqlRequestAllowed (request : L7Request) (endpoint : NetworkEndpoint) : Bool :=
  request.graphql.any fun graphql =>
    !graphql.operations.isEmpty && isEmptyStr graphql.error &&
      (graphql.operations.all fun op =>
        !graphqlOperationNeedsRegistry op || graphqlRegisteredOperation endpoint op) &&
      graphql.operations.all fun op => anyAllow endpoint (graphqlAllowMatches rego endpoint op)

/-! ## JSON-RPC methods -/

def jsonrpcFamilyEndpoint : Bool :=
  endpoint.protocol == "json-rpc" || endpoint.protocol == "mcp"

def jsonrpcRuleMethodMatches (method ruleMethod : String) : Bool :=
  if endpoint.protocol = "json-rpc" then ruleMethod == "*" || ruleMethod == method
  else rego.globMatch ruleMethod [] method

def jsonrpcParamsMatch (jsonrpc : JsonRpcInput) (allow : L7Allow) : Bool :=
  allow.params.toList.all fun entry =>
    jsonrpc.params[entry.1]?.any fun value => queryValueMatches rego value entry.2

/-- An extension method needs a rule that names it. -/
def jsonrpcAllowRuleClassificationAllowed (jsonrpc : JsonRpcInput) (endpoint : NetworkEndpoint)
    (method ruleMethod : String) : Bool :=
  endpoint.protocol == "json-rpc" || jsonrpc.mcpMethodClassification == "available" ||
    (jsonrpc.mcpMethodClassification == "extension" && ruleMethod == method)

def jsonrpcAllowMatches (jsonrpc : JsonRpcInput) (method : String) (allow : L7Allow) : Bool :=
  !isEmptyStr allow.method && jsonrpcRuleMethodMatches rego endpoint method allow.method &&
    (endpoint.protocol == "json-rpc" || jsonrpcParamsMatch rego jsonrpc allow) &&
    jsonrpcAllowRuleClassificationAllowed jsonrpc endpoint method allow.method

def jsonrpcRequestAllowed (request : L7Request) (endpoint : NetworkEndpoint) : Bool :=
  request.method == "POST" && request.jsonrpc.any fun jsonrpc =>
    !jsonrpc.hasResponse && jsonrpc.method.any fun method =>
      !isEmptyStr method && anyAllow endpoint (jsonrpcAllowMatches rego endpoint jsonrpc method)

/-! ## The endpoint -/

/-- Explicit rules of the endpoint allow the request. -/
def rulesAllow (request : L7Request) : Bool :=
  (if jsonrpcFamilyEndpoint endpoint then jsonrpcRequestAllowed rego request endpoint
    else anyAllow endpoint (restAllowMatches rego request)) ||
    graphqlRequestAllowed rego request endpoint

end Matching

end OpenShell.L7
