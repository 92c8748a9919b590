import OpenShell.Core.HostPattern
import OpenShell.Policy.Presets
import OpenShell.Prover.Network
import OpenShell.Util.Regexp

/-!
# The containment prover's network predicate

`check_within_boundary` compares two policies through one formula over a
symbolic action, `policy_allows` of `containment.rs` with the address part of
`containment/ip.rs`. Here the formula is read at a concrete action: patterns
become the regular languages the code builds, and the connectives are those of
`Bool`. `actionDomain` is what the solver is told about every action.

Two parts of the formula come from outside. `glob::Pattern::new` decides how an
endpoint's own path is read, and the solver's simplifier decides whether an
endpoint's host can be one of the gateway names.
-/

namespace OpenShell.Prover

open OpenShell.Core OpenShell.Schema
open OpenShell.Policy (AccessPreset Map)

/-! ## Patterns -/

/-- A non-empty text without the separator. -/
def nonSeparatorRegex (separator : String) : Regexp Char :=
  let containsSeparator := Regexp.concat [.full, .literal separator.toList, .full]
  .inter (.complement containsSeparator) (.complement (.literal []))

/-- A literal character, or the expression a single star stands for. -/
def charRegex (singleStar : Regexp Char) (c : Char) : Regexp Char :=
  if c = '*' then singleStar else .literal [c]

/-- The parts of a path pattern, segment by segment. Of consecutive recursive
segments only the last one counts; in the middle it includes the slash after it
and may stand for nothing. -/
def pathGlobParts (singleStar : Regexp Char) : List (List Char) → List (Regexp Char)
  | [] => []
  | segment :: segments =>
    if segment = ['*', '*'] then
      match segments with
      | [] => [.full]
      | next :: _ =>
        if next = ['*', '*'] then pathGlobParts singleStar segments
        else .union (.literal []) (.concat [.full, .literal ['/']]) ::
          pathGlobParts singleStar segments
    else
      segment.map (charRegex singleStar) ++
        (if segments.isEmpty then [] else [.literal ['/']]) ++ pathGlobParts singleStar segments

def pathGlobRegex (pattern : String) (singleStar : Regexp Char) : Regexp Char :=
  .concat (pathGlobParts singleStar (pattern.toList.splitOn '/'))

/-- The parts of a host pattern. -/
def hostGlobParts (separator : String) : List Char → List (Regexp Char)
  | [] => []
  | '*' :: '*' :: rest => .full :: hostGlobParts separator rest
  | c :: rest => charRegex (.star (nonSeparatorRegex separator)) c :: hostGlobParts separator rest

def globRegex (pattern separator : String) : Regexp Char :=
  if pattern = "**" then .full
  else if separator = "/" then pathGlobRegex pattern (.star (nonSeparatorRegex "/"))
  else .concat (hostGlobParts separator pattern.toList)

def regexMatches (text : String) (regex : Regexp Char) : Bool := regex.isMatch text.toList

/-! ## Policies and actions -/

/-- The part of a policy that boundary checking reads. -/
structure ContainmentPolicy where
  filesystemPolicy : FilesystemPolicy := {}
  networkPolicies : Map NetworkPolicyRule := ∅
  landlock : Option LandlockPolicy := none
  process : Option ProcessPolicy := none
  networkMiddlewares : Map NetworkMiddleware := ∅
  deriving DecidableEq

/-- The network rules, in the order of their names. -/
def ContainmentPolicy.rules (policy : ContainmentPolicy) : List NetworkPolicyRule :=
  policy.networkPolicies.toList.map (·.2)

inductive Protocol
  | l4 | rest
  deriving DecidableEq

def Protocol.asStr : Protocol → String
  | .l4 => "l4"
  | .rest => "rest"

def protocolKind (endpoint : NetworkEndpoint) : Protocol := if endpoint.isL4 then .l4 else .rest

/-- `SymbolicAction`, at concrete values. -/
structure Action where
  binary : String
  ancestorBinary : String
  host : String
  port : Int
  layer : String
  method : String
  path : String
  ip : Destination
  trustedGateway : Bool
  deriving DecidableEq

/-- A path the runtime could report for an executable. -/
def binaryInDomain (path : String) : Bool :=
  regexMatches path (globRegex "/**" "/") && decide (path.toList.length ≤ 4096)

/-- A canonical request path, as far as the solver is told. -/
def pathInDomain (path : String) : Bool :=
  startsWith path "/" && decide (path.toList.length ≤ 4096) &&
    ["//", "/./", "/../", ";", "?", "#"].all (fun forbidden => !containsStr path forbidden) &&
    path != "/." && path != "/.." && !endsWith path "/." && !endsWith path "/.."

/-- `assert_action_domain`. -/
def actionDomain (action : Action) (binaryIdentityRequired : Bool) : Bool :=
  action.ip.inDomain &&
    (!binaryIdentityRequired ||
      (binaryInDomain action.binary && binaryInDomain action.ancestorBinary)) &&
    decide (1 ≤ action.port) && decide (action.port ≤ 65535) &&
    (action.layer == "l4" || action.layer == "rest") && action.method != "" &&
    pathInDomain action.path

/-- What the solver's simplifier answers on a closed membership test: a truth
value only when it is the right one. -/
structure Simplifier where
  simplify : String → Regexp Char → Option Bool
  sound : ∀ text regex answer, simplify text regex = some answer → regexMatches text regex = answer

/-! ## Endpoints -/

def strEqAny (value : String) (options : List String) : Bool := options.any (value == ·)

def strEqAnyCaseInsensitive (value : String) (options : List String) : Bool :=
  options.any fun option => value == toAsciiUppercase option

def endpointMatchesConnection (endpoint : NetworkEndpoint) (action : Action) : Bool :=
  endpoint.effectivePorts.any (fun port => action.port == port.toNat) &&
    regexMatches action.host (globRegex (toAsciiLowercase endpoint.host) ".")

def anyMethodMatches (action : Action) (path : String) : Bool :=
  regexMatches action.path (globRegex path "/")

def methodsMatch (action : Action) (methods : List String) (path : String) : Bool :=
  strEqAnyCaseInsensitive action.method methods && regexMatches action.path (globRegex path "/")

def methodAndPathMatch (method path : String) (action : Action) : Bool :=
  if isEmptyStr method then false
  else
    let path := if isEmptyStr path then "**" else path
    if method = "*" then anyMethodMatches action path
    else if eqIgnoreAsciiCase method "GET" then methodsMatch action ["GET", "HEAD"] path
    else methodsMatch action [method] path

def restEndpointAllows (endpoint : NetworkEndpoint) (action : Action) : Bool :=
  match AccessPreset.parse endpoint.access with
  | some .full => anyMethodMatches action "**"
  | some preset => methodsMatch action (preset.methods "rest") "**"
  | none =>
    endpoint.rules.any fun rule => methodAndPathMatch rule.allow.method rule.allow.path action

section
variable (glob : Glob)

/-- Mirrors `endpoint_path`, not the matcher of REST rules: a subtree's prefix is
literal, and a single star crosses separators. -/
def endpointPathMatches (endpoint : NetworkEndpoint) (action : Action) : Bool :=
  let pattern := endpoint.path
  if pattern = "" ∨ pattern = "**" ∨ pattern = "/**" then true
  else match stripSuf pattern "/**" with
    | some pre => action.path == pre || startsWith action.path (pre ++ "/")
    | none =>
      match glob.new pattern with
      | .error _ => action.path == pattern
      | .ok _ =>
        -- a terminal `**/` matches the rest of the path
        let pattern := if endsWith pattern "/**/" then (stripSuf pattern "/").getD pattern
          else pattern
        regexMatches action.path (pathGlobRegex pattern .full)

def endpointAllows (endpoint : NetworkEndpoint) (action : Action) : Bool :=
  match protocolKind endpoint with
  | .l4 => endpointMatchesConnection endpoint action
  | .rest =>
    endpointMatchesConnection endpoint action && action.layer == "rest" &&
      endpointPathMatches glob endpoint action && restEndpointAllows endpoint action

def endpointDenies (endpoint : NetworkEndpoint) (action : Action) : Bool :=
  if protocolKind endpoint ≠ .rest ∨ endpoint.denyRules.isEmpty then false
  else
    endpointMatchesConnection endpoint action && action.layer == "rest" &&
      endpointPathMatches glob endpoint action &&
      endpoint.denyRules.any fun deny => methodAndPathMatch deny.method deny.path action

end

/-! ## Destination addresses -/

def gatewayAliases : List String :=
  ["host.openshell.internal", "host.containers.internal", "host.docker.internal"]

def controlPort (action : Action) : Bool :=
  [2379, 2380, 6443, 10250, 10255].any fun port => action.port == port

/-- Whether the endpoint's host can be a gateway name, as far as the simplifier
can tell. -/
def canMatchGateway (z : Simplifier) (endpoint : NetworkEndpoint) : Bool :=
  gatewayAliases.any fun name =>
    z.simplify name (globRegex (toAsciiLowercase endpoint.host) ".") != some false

/-- Addresses of an ordinary destination. -/
def ordinaryAddress (endpoint : NetworkEndpoint) (action : Action) : Bool :=
  if endpoint.allowedIps.isEmpty then
    match parseIpAddr endpoint.host with
    | none =>
      if !containsChar endpoint.host '*' then !action.ip.hardBlocked && !controlPort action
      else !action.ip.internal
    | some ip =>
      action.ip.within (Network.fromIp ip) && !action.ip.hardBlocked && !controlPort action
  else
    endpoint.allowedIps.any (fun raw => (Network.parse raw).any action.ip.within) &&
      !action.ip.hardBlocked && !controlPort action

/-- Addresses of the host gateway: link-local, without the metadata service. -/
def gatewayAddress (action : Action) : Bool :=
  (action.ip.ranges ["169.254.0.0/16", "fe80::/10"] ||
      action.ip.mappedV4Ranges ["169.254.0.0/16"]) &&
    !action.ip.ranges ["169.254.169.254/32"] && !action.ip.mappedV4Ranges ["169.254.169.254/32"] &&
    !controlPort action

def trusted (action : Action) : Bool := strEqAny action.host gatewayAliases && action.trustedGateway

/-- A literal destination cannot resolve to another address. -/
def literalAddress (endpoint : NetworkEndpoint) (action : Action) : Bool :=
  match parseIpAddr endpoint.host with
  | none => true
  | some ip => action.ip.within (Network.fromIp ip)

def addressAllowed (z : Simplifier) (endpoint : NetworkEndpoint) (action : Action) : Bool :=
  (if canMatchGateway z endpoint then
      (if trusted action then gatewayAddress action else ordinaryAddress endpoint action)
    else ordinaryAddress endpoint action) &&
    literalAddress endpoint action

/-! ## Policies -/

def binariesMatch (rule : NetworkPolicyRule) (action : Action) (binaryIdentityRequired : Bool) :
    Bool :=
  if !binaryIdentityRequired then true
  else rule.binaries.any fun binary =>
    regexMatches action.binary (globRegex binary.path "/") ||
      regexMatches action.ancestorBinary (globRegex binary.path "/")

section
variable (glob : Glob) (z : Simplifier) (selected : NetworkPolicyRule → Bool)

/-- `rule_allows`, with the rule's binaries tested by `selected`. -/
def ruleAllows (rule : NetworkPolicyRule) (action : Action) : Bool :=
  selected rule && rule.endpoints.any (endpointAllows glob · action)

/-- `rule_denies`, with the rule's binaries tested by `selected`. -/
def ruleDenies (rule : NetworkPolicyRule) (action : Action) : Bool :=
  selected rule && rule.endpoints.any (endpointDenies glob · action)

/-- `ip::policy_allows`, with each rule's binaries tested by `selected`. -/
def destinationAllowed (policy : ContainmentPolicy) (action : Action) : Bool :=
  policy.rules.any fun rule => rule.endpoints.any fun endpoint =>
    selected rule && endpointMatchesConnection endpoint action && addressAllowed z endpoint action

/-- `policy_allows`, with each rule's binaries tested by `selected`. -/
def policyAllowsBy (policy : ContainmentPolicy) (action : Action) : Bool :=
  policy.rules.any (ruleAllows glob selected · action) &&
    !policy.rules.any (ruleDenies glob selected · action) &&
    destinationAllowed z selected policy action

end

def policyAllows (glob : Glob) (z : Simplifier) (policy : ContainmentPolicy) (action : Action)
    (binaryIdentityRequired : Bool) : Bool :=
  policyAllowsBy glob z (binariesMatch · action binaryIdentityRequired) policy action

/-! ## Reading the predicate -/

section
variable {glob : Glob} {z : Simplifier} {selected : NetworkPolicyRule → Bool}
  {policy : ContainmentPolicy} {action : Action}

theorem anyRuleAllows_iff :
    policy.rules.any (ruleAllows glob selected · action) = true ↔
      ∃ rule ∈ policy.rules, selected rule = true ∧
        ∃ endpoint ∈ rule.endpoints, endpointAllows glob endpoint action = true := by
  simp [ruleAllows]

theorem anyRuleDenies_iff :
    policy.rules.any (ruleDenies glob selected · action) = true ↔
      ∃ rule ∈ policy.rules, selected rule = true ∧
        ∃ endpoint ∈ rule.endpoints, endpointDenies glob endpoint action = true := by
  simp [ruleDenies]

theorem destinationAllowed_iff :
    destinationAllowed z selected policy action = true ↔
      ∃ rule ∈ policy.rules, selected rule = true ∧
        ∃ endpoint ∈ rule.endpoints, endpointMatchesConnection endpoint action = true ∧
          addressAllowed z endpoint action = true := by
  simp only [destinationAllowed, List.any_eq_true, Bool.and_eq_true]
  grind

theorem policyAllowsBy_iff :
    policyAllowsBy glob z selected policy action = true ↔
      policy.rules.any (ruleAllows glob selected · action) = true ∧
        policy.rules.any (ruleDenies glob selected · action) = false ∧
        destinationAllowed z selected policy action = true := by
  simp only [policyAllowsBy, Bool.and_eq_true, Bool.not_eq_true', and_assoc]

end

end OpenShell.Prover
